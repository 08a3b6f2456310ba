import Intake.Proofs.Closeout

/-!
# Sessions past their deadline, in small steps

Past its deadline a session waits for nobody but a worker whose extractor is blocked, however its
steps fall apart. Where nobody can go on, its relay has decided on everything; its entry is closed,
or somebody who took it off the list is yet to close it.

Such a close in two halves is the one thing that shows. At its deadline a run can find its entry
open and on no list, and goes on; the relay, which looks at the entry before it looks at the clock,
then says of the last event that its time was up, and not that the entry was closed
(`Passage.Elapses`). And a look at the clock is past by the look at the slot: an event can still be
delivered behind the deadline, by the one delivery that had read the clock before it.
-/

namespace Intake

namespace Run

variable {r r' : Run} {hub hub' : Hub} {a : Action} {handed : List Event}
  {decides : List (Event × DeliveryOutcome)}

/-- The deadline elapses for a run that waits at the barrier, and else stays as it was. -/
theorem Acted.elapsed (ha : r.Acted hub a handed decides hub' r') :
    r'.deadlineElapsed = r.deadlineElapsed
      ∨ handed = [] ∧ decides = [] ∧ r.phase = .waiting ∧ r'.phase = .overdue
        ∧ r.deadline ≤ hub.now := by
  cases ha with
  | expired hp hd => exact Or.inr ⟨rfl, rfl, hp, rfl, hd⟩
  | @worked i w s _ _ =>
      left
      unfold applyStep
      cases s.event <;> cases s.leaves <;> rfl
  | _ => exact Or.inl rfl

/-- Only the relay changes what it works on. -/
theorem Acted.current (ha : r.Acted hub a handed decides hub' r') (hne : a ≠ .relay) :
    r'.relay.current = r.relay.current := by
  have hemit : ∀ e, (r.relay.emit e).2.current = r.relay.current := by
    intro e
    obtain ⟨mirror, hm⟩ := r.relay.reflect_eq e
    unfold Relay.emit Relay.enqueue
    rw [hm]
    split <;> rfl
  have hgive : ∀ (x : Relay) c, (x.give c).current = x.current := by
    intro x c
    unfold Relay.give
    split
    · rfl
    · split <;> rfl
  cases ha with
  | announced _ => exact hemit _
  | queued _ _ => exact hemit _
  | submitted _ =>
      obtain ⟨mirror, hm⟩ := r.relay.reflect_eq r.lastEvent
      show (r.relay.submit r.lastEvent lastTicket).current = _
      unfold Relay.submit
      rw [hm]
      exact hgive { r.relay with mirror } _
  | stopped _ => exact hgive r.relay _
  | @worked i w s _ _ =>
      unfold applyStep
      cases s.event with
      | none => cases s.leaves <;> rfl
      | some e => cases s.leaves <;> exact hemit e
  | decided _ _ _ _ => exact absurd rfl hne
  | begun _ _ _ _ _ => exact absurd rfl hne
  | suppressed _ _ _ _ _ => exact absurd rfl hne
  | halted _ _ _ _ => exact absurd rfl hne
  | drained _ _ _ _ => exact absurd rfl hne
  | _ => rfl

/-- With no event in work the relay decides only on an event that may not be shown. The last one
always may. -/
theorem Acted.unshown (ha : r.Acted hub a handed decides hub' r')
    (hrelay : a = .relay → r.relay.current = none) :
    decides = [] ∨ ∃ e, decides = [(e, .suppressed)] ∧ e.state.isTerminal = false := by
  cases ha with
  | decided _ hc _ _ => exact absurd ((hrelay rfl).symm.trans hc) (by simp)
  | @suppressed c e relay _ _ _ _ hadm =>
      refine Or.inr ⟨e, rfl, ?_⟩
      by_contra hterm
      rw [ProgressFilter.admits_terminal _ (by simpa using hterm)] at hadm
      exact absurd hadm (by simp)
  | _ => exact Or.inl rfl

end Run

namespace InOrder

variable {p : Prepared} {r : Run} {log : List Event} {decided : List (Event × DeliveryOutcome)}

/-- The event in work was handed over. -/
theorem logged_of_current (h : InOrder p r log decided) {c : RelayCommand} {e : Event}
    (hc : r.relay.current = some c) (he : c.event? = some e) : e ∈ log := by
  obtain ⟨pending, stops, hacc, hlog, _⟩ := h.booked.accounts
  have hcmds : r.relay.commands = c :: r.relay.queue := by
    unfold Relay.commands
    rw [hc]
    rfl
  obtain ⟨more, hpending, _⟩ := hacc.first hcmds he
  rw [hlog, hpending]
  exact List.mem_append_right _ List.mem_cons_self

/-- At the barrier no last event was told yet. -/
theorem early (h : InOrder p r log decided) (hp : r.phase = .waiting ∨ r.phase = .overdue)
    {e : Event} (he : e ∈ log) : e.state.isTerminal = false := by
  rcases hp with hp | hp <;>
    exact h.logged.progress (by rw [hp]; simp [RunPhase.rank]) (by rw [hp]; simp) he

end InOrder

namespace Passage

variable {p : Prepared} {t t' : Passage} {r : Run}

/-! ## What stays so -/

/-- **A closed entry stays closed.** -/
theorem closed_moved {h : Handle} (hc : t.hub.registry.Closed h) (hm : t.Moved t') :
    t'.hub.registry.Closed h := by
  cases hm with
  | settled _ _ _ hr =>
      cases hr with
      | closed _ _ => exact hc
      | late _ _ => exact hc
      | offered _ ho =>
          unfold Registry.offer? at ho
          split at ho
          · cases ho
            exact hc
          · rename_i f hf
            obtain ⟨⟨o, f'⟩, hof, heq⟩ := Option.map_eq_some_iff.mp ho
            cases heq
            obtain ⟨g, hg, hcl⟩ := hc
            obtain ⟨g', hg', hk⟩ := Registry.entry?_kept hf (Entry.offer?_keeps hof) hg
            exact ⟨g', hg', hk.closed.trans hcl⟩
  | @chored r c rest _ _ =>
      cases c with
      | unlist =>
          have hstir : t.hub.registry.Stirred t.closing _ _ :=
            .begun (Registry.beginCloseEntry_begun t.hub.registry r.handle)
          exact hc.stirred hstir
      | close k => exact hc.cancel k
      | release => exact hc
      | stamp => exact hc
  | stirred hstir => exact hc.stirred hstir
  | around hreg _ =>
      show Registry.Closed _ h
      rw [hreg]
      exact hc
  | _ => exact hc

/-- A run goes on as it was set up, and the clock does not go back. -/
theorem Moved.goes_on (hs : t.stage = .running r) (hm : t.Moved t') :
    ∃ r', t'.stage = .running r' ∧ r'.relay.deadline = r.relay.deadline
      ∧ (r.isOver = true → r'.isOver = true) ∧ t.hub.now ≤ t'.hub.now := by
  have hover : ∀ {r₁ r₂ : Run} {hub hub' : Hub} {a : Run.Action} {handed : List Event}
      {decides : List (Event × DeliveryOutcome)}, r₁.Acted hub a handed decides hub' r₂ →
      r₁.isOver = true → r₂.isOver = true := by
    intro r₁ r₂ hub hub' a handed decides ha ho
    have hp : r₂.phase = r₁.phase := by
      by_contra hne
      obtain ⟨_, hret, hab⟩ := ha.alive hne
      unfold Run.isOver at ho
      split at ho
      · exact hret ‹_›
      · exact hab ‹_›
      · exact absurd ho (by simp)
    unfold Run.isOver at ho ⊢
    rw [hp]
    exact ho
  cases hm with
  | same => exact ⟨r, hs, rfl, id, Nat.le_refl _⟩
  | arranged _ _ hq => exact absurd (hs.symm.trans hq) (by simp)
  | started hq => exact absurd (hs.symm.trans hq) (by simp)
  | @copied r₁ _ a _ e _ hs₁ _ _ _ =>
      cases run_unique hs hs₁
      obtain ⟨mirror, hm⟩ := r.relay.reflect_eq e
      exact ⟨_, rfl, by rw [hm], id, Nat.le_refl _⟩
  | handed hs₁ _ ha =>
      cases run_unique hs hs₁
      have hacted := Run.act_acted ha
      have hstays := hover hacted
      exact ⟨_, rfl, hacted.terms.2, hstays, Nat.le_refl _⟩
  | stepped hs₁ _ _ ha =>
      cases run_unique hs hs₁
      refine ⟨_, rfl, ha.terms.2, hover ha, ?_⟩
      exact Nat.le_of_eq ha.terms.1.symm
  | turned _ _ _ => exact ⟨r, hs, rfl, id, Nat.le_refl _⟩
  | settled hs₁ _ _ _ =>
      cases run_unique hs hs₁
      exact ⟨_, rfl, rfl, id, Nat.le_refl _⟩
  | @chored r₁ c rest hs₁ _ =>
      cases run_unique hs hs₁
      cases c with
      | stamp => exact ⟨_, rfl, rfl, id, Nat.le_refl _⟩
      | _ => exact ⟨r, hs, rfl, id, Nat.le_refl _⟩
  | yielded _ => exact ⟨r, hs, rfl, id, Nat.le_refl _⟩
  | abandoned hs₁ _ _ =>
      cases run_unique hs hs₁
      exact ⟨_, rfl, rfl, fun _ => rfl, Nat.le_refl _⟩
  | tended _ _ _ hs₁ =>
      cases run_unique hs hs₁
      exact ⟨_, rfl, rfl, id, Nat.le_refl _⟩
  | stirred _ => exact ⟨r, hs, rfl, id, Nat.le_refl _⟩
  | around _ hnow => exact ⟨r, hs, rfl, id, hnow⟩

/-! ## What is delivered at last -/

/-- **Only a look at the slot delivers**, and then a delivery begins anew. -/
theorem delivered_moved (hm : t.Moved t') : Course.delivered t'.decided = Course.delivered t.decided
    ∨ t.next = .slot ∧ t'.next = .token
      ∧ ∃ e, Course.delivered t'.decided = Course.delivered t.decided ++ [e] := by
  cases hm with
  | stepped _ _ hrelay ha =>
      left
      rcases ha.unshown hrelay with hnone | ⟨e, hone, _⟩
      · rw [hnone, List.append_nil]
      · rw [hone, Course.delivered_append, Entry.gain, if_neg (by simp), List.append_nil]
  | @settled r c e o registry hs hc he hr =>
      have happ := Course.delivered_append t.decided e o
      have hnot : o ≠ .delivered → Course.delivered (t.settle r c e o registry).decided
          = Course.delivered t.decided := by
        intro ho
        rw [Entry.gain, if_neg ho, List.append_nil] at happ
        exact happ
      cases hr with
      | closed _ _ => exact Or.inl (hnot (by simp))
      | late _ _ => exact Or.inl (hnot (by simp))
      | offered hn _ =>
          by_cases ho : o = .delivered
          · rw [Entry.gain, if_pos ho] at happ
            exact Or.inr ⟨hn, rfl, e, happ⟩
          · exact Or.inl (hnot ho)
  | @chored r c rest _ _ => cases c <;> exact Or.inl rfl
  | _ => exact Or.inl rfl

/-- Holds when no delivery can come to the slot any more: the deadline is past, or the entry
closed. -/
def Ceasing (p : Prepared) (t : Passage) (r : Run) : Prop :=
  r.relay.deadline ≤ t.hub.now ∨ t.hub.registry.Closed p.handle

/-- Holds when none is about to look at it either. -/
def Spent (p : Prepared) (t : Passage) (r : Run) : Prop :=
  r.relay.deadline ≤ t.hub.now ∧ t.next ≠ .slot
    ∨ t.hub.registry.Closed p.handle ∧ t.next = .token

theorem Spent.ceasing (h : t.Spent p r) : t.Ceasing p r :=
  h.imp And.left And.left

theorem Spent.not_slot (h : t.Spent p r) : t.next ≠ .slot := by
  rcases h with ⟨_, hn⟩ | ⟨_, hn⟩
  · exact hn
  · rw [hn]
    simp

theorem Ceasing.spent (h : t.Ceasing p r) (hn : t.next = .token) : t.Spent p r :=
  h.imp (fun hd => ⟨hd, by rw [hn]; simp⟩) (fun hc => ⟨hc, hn⟩)

theorem Ceasing.moved (h : t.Ceasing p r) (hs : t.stage = .running r) (hm : t.Moved t') :
    ∃ r', t'.stage = .running r' ∧ t'.Ceasing p r' := by
  obtain ⟨r', hs', hd, _, hnow⟩ := hm.goes_on hs
  refine ⟨r', hs', h.imp (fun hdue => ?_) fun hc => closed_moved hc hm⟩
  rw [hd]
  exact hdue.trans hnow

theorem Spent.moved (h : t.Spent p r) (hst : t.Steady p) (hs : t.stage = .running r)
    (hm : t.Moved t') : ∃ r', t'.stage = .running r' ∧ t'.Spent p r' := by
  obtain ⟨r', hs', hdl, _, hnow⟩ := hm.goes_on hs
  -- a move that is no look
  have hkeep : t'.next = t.next → ∃ r', t'.stage = .running r' ∧ t'.Spent p r' := by
    intro hn
    refine ⟨r', hs', ?_⟩
    rcases h with ⟨hdue, hslot⟩ | ⟨hc, htoken⟩
    · exact Or.inl ⟨hdl ▸ hdue.trans hnow, by rw [hn]; exact hslot⟩
    · exact Or.inr ⟨closed_moved hc hm, hn.trans htoken⟩
  cases hm with
  | @turned r₁ next hs₁ _ ht =>
      cases run_unique hs hs₁
      refine ⟨r, hs, ?_⟩
      cases ht with
      | opened hn ho =>
          rcases h with ⟨hdue, _⟩ | ⟨hc, _⟩
          · exact Or.inl ⟨hdue, by simp⟩
          · rw [(hst.going hs).inOrder.booked.handle, hc.isClosed] at ho
            exact absurd ho (by simp)
      | early hn hearly =>
          rcases h with ⟨hdue, _⟩ | ⟨_, htoken⟩
          · exact absurd hdue (Nat.not_le.mpr hearly)
          · exact absurd (htoken.symm.trans hn) (by simp)
      | waits hn => exact absurd hn h.not_slot
  | settled hs₁ hc he hr =>
      obtain ⟨r₂, hs₂, hcease⟩ := h.ceasing.moved hs (.settled hs₁ hc he hr)
      exact ⟨r₂, hs₂, hcease.spent rfl⟩
  | yielded hn => exact absurd hn h.not_slot
  | @chored r c rest _ _ => cases c <;> exact hkeep rfl
  | _ => exact hkeep rfl

/-- **One delivery at most is yet to come**, and none unless it was about to be made. -/
theorem Ceasing.play (h : t.Ceasing p r) (hst : t.Steady p) (hs : t.stage = .running r)
    (ms : List Move) :
    ∃ last, Course.delivered (t.play ms).decided = Course.delivered t.decided ++ last
      ∧ last.length ≤ 1 ∧ (t.Spent p r → last = []) := by
  induction ms generalizing t r with
  | nil => exact ⟨[], (List.append_nil _).symm, Nat.zero_le 1, fun _ => rfl⟩
  | cons m ms ih =>
      have hm := t.move_moved m
      obtain ⟨r', hs', h'⟩ := h.moved hs hm
      obtain ⟨last, hlast, hlen, hnone⟩ := ih h' (steady_moved hst hm) hs'
      have hspent : t.Spent p r → last = [] := by
        intro hsp
        obtain ⟨r₁, hs₁, hsp'⟩ := hsp.moved hst hs hm
        rw [hs'] at hs₁
        cases hs₁
        exact hnone hsp'
      rcases delivered_moved hm with hsame | ⟨hslot, htoken, e, hone⟩
      · rw [hsame] at hlast
        exact ⟨last, hlast, hlen, hspent⟩
      · rw [hnone (h'.spent htoken), List.append_nil, hone] at hlast
        exact ⟨[e], hlast, Nat.le_refl 1, fun hsp => absurd hslot hsp.not_slot⟩

/-! ## The last event behind the deadline -/

/-- **The invariant of a session and its deadline.** -/
structure Elapses (p : Prepared) (r : Run) (t : Passage) : Prop where
  /-- Between its looks a delivery has its event in work. -/
  working : t.next ≠ .token → r.relay.current.isSome = true
  due : r.deadlineElapsed = true → r.relay.deadline ≤ t.hub.now
  /-- The run closes its entry before it goes on, unless it finds that somebody else is to. -/
  closed : r.deadlineElapsed = true →
    r.phase = .overdue ∧ (.unlist ∈ t.chores ∨ .close p.handle ∈ t.chores)
      ∨ t.hub.registry.Closed p.handle ∨ t.overtaken = true
  /-- The last event comes no further than to the clock. -/
  last : r.deadlineElapsed = true → ∀ c e, r.relay.current = some c → c.event? = some e →
    e.state.isTerminal = true → t.next = .token ∨ t.next = .clock ∧ t.overtaken = true
  decided : r.deadlineElapsed = true → ∀ d ∈ t.decided, d.1.state.isTerminal = true →
    d.2 = .closed ∨ d.2 = .timedOut ∧ t.overtaken = true

namespace Elapses

/-- Moves that leave the looks, and what the relay has decided, as they are. -/
theorem carry {r' : Run} (h : Elapses p r t)
    (hel : r'.deadlineElapsed = true → r.deadlineElapsed = true)
    (hdl : r'.relay.deadline = r.relay.deadline) (hcur : r'.relay.current = r.relay.current)
    (hnow : t.hub.now ≤ t'.hub.now) (hnext : t'.next = t.next) (hdec : t'.decided = t.decided)
    (hover : t.overtaken = true → t'.overtaken = true)
    (hclosed : r'.deadlineElapsed = true →
      r'.phase = .overdue ∧ (.unlist ∈ t'.chores ∨ .close p.handle ∈ t'.chores)
        ∨ t'.hub.registry.Closed p.handle ∨ t'.overtaken = true) : Elapses p r' t' where
  working := by
    rw [hnext, hcur]
    exact h.working
  due he := by
    rw [hdl]
    exact (h.due (hel he)).trans hnow
  closed := hclosed
  last he c e hc hev hterm := by
    rw [hnext]
    exact (h.last (hel he) c e (hcur ▸ hc) hev hterm).imp_right fun hl => ⟨hl.1, hover hl.2⟩
  decided he d hd hterm := by
    rw [hdec] at hd
    exact (h.decided (hel he) d hd hterm).imp_right fun hl => ⟨hl.1, hover hl.2⟩

/-- They leave the chores of an overdue run as they are, too. -/
theorem keep {r' : Run} (h : Elapses p r t)
    (hel : r'.deadlineElapsed = true → r.deadlineElapsed = true)
    (hdl : r'.relay.deadline = r.relay.deadline) (hcur : r'.relay.current = r.relay.current)
    (hnow : t.hub.now ≤ t'.hub.now) (hnext : t'.next = t.next) (hdec : t'.decided = t.decided)
    (hover : t.overtaken = true → t'.overtaken = true)
    (hclosed : t.hub.registry.Closed p.handle → t'.hub.registry.Closed p.handle)
    (hchores : r.phase = .overdue → t.chores ≠ [] →
      r'.phase = .overdue ∧ t'.chores = t.chores) : Elapses p r' t' := by
  refine h.carry hel hdl hcur hnow hnext hdec hover fun he => ?_
  rcases h.closed (hel he) with ⟨hp, hm⟩ | hc | ho
  · have hne : t.chores ≠ [] := by
      rcases hm with hm | hm <;> exact List.ne_nil_of_mem hm
    obtain ⟨hp', hsame⟩ := hchores hp hne
    rw [hsame]
    exact Or.inl ⟨hp', hm⟩
  · exact Or.inr (Or.inl (hclosed hc))
  · exact Or.inr (Or.inr (hover ho))

/-- Where the last event was handed over, the entry is closed or somebody else is to close it. -/
theorem behind (h : Elapses p r t) (hg : Going p r t) (hel : r.deadlineElapsed = true) {e : Event}
    (he : e ∈ t.events) (hterm : e.state.isTerminal = true) :
    t.hub.registry.Closed p.handle ∨ t.overtaken = true := by
  refine (h.closed hel).resolve_left fun hp => ?_
  have hearly := hg.inOrder.early (Or.inr hp.1) he
  rw [hterm] at hearly
  exact absurd hearly (by simp)

/-- A relay that begins with an event begins with the token. -/
theorem looking {r' : Run} {a : Run.Action} {decides : List (Event × DeliveryOutcome)} {hub : Hub}
    (h : Elapses p r t) (hrelay : a = .relay → r.relay.current = none)
    (ha : r.Acted t.hub a [] decides hub r') (hn : t.next ≠ .token) :
    r'.relay.current = r.relay.current := by
  refine ha.current fun hact => ?_
  have hsome := h.working hn
  rw [hrelay hact] at hsome
  exact absurd hsome (by simp)

/-- A step by which the deadline does not elapse. -/
theorem went_on {r' : Run} {a : Run.Action} {decides : List (Event × DeliveryOutcome)} {hub : Hub}
    (h : Elapses p r t) (hrun : a = .run → t.chores = [])
    (hrelay : a = .relay → r.relay.current = none) (ha : r.Acted t.hub a [] decides hub r')
    (hsame : r'.deadlineElapsed = r.deadlineElapsed) :
    Elapses p r' { t with
      hub := { hub with registry := t.hub.registry }
      stage := .running r'
      chores := if r'.phase = r.phase then t.chores else r'.phase.chores
      decided := t.decided ++ decides } := by
  refine ⟨?_, ?_, ?_, ?_, ?_⟩
  · intro hn
    rw [h.looking hrelay ha hn]
    exact h.working hn
  · intro hel
    rw [ha.terms.2]
    exact (h.due (hsame ▸ hel)).trans (Nat.le_of_eq ha.terms.1.symm)
  · intro hel
    refine (h.closed (hsame ▸ hel)).imp_left fun ⟨hp, hm⟩ => ?_
    by_cases hphase : r'.phase = r.phase
    · show _ ∧ (_ ∈ (if r'.phase = r.phase then t.chores else r'.phase.chores) ∨ _)
      rw [if_pos hphase]
      exact ⟨hphase.trans hp, hm⟩
    · -- the run has done what it had to do
      rw [hrun (ha.alive hphase).1] at hm
      exact absurd hm (by simp)
  · intro hel c e hc hev hterm
    by_cases hn : t.next = .token
    · exact Or.inl hn
    · exact h.last (hsame ▸ hel) c e (h.looking hrelay ha hn ▸ hc) hev hterm
  · intro hel d hd hterm
    rcases List.mem_append.mp hd with hold | hnew
    · exact h.decided (hsame ▸ hel) d hold hterm
    · rcases ha.unshown hrelay with hnone | ⟨e, hone, hno⟩
      · rw [hnone] at hnew
        exact absurd hnew (by simp)
      · rw [hone] at hnew
        rw [List.mem_singleton.mp hnew, hno] at hterm
        exact absurd hterm (by simp)

/-- The step by which it does. At the barrier no last event was handed over yet. -/
theorem elapsed {r' : Run} {a : Run.Action} {decides : List (Event × DeliveryOutcome)} {hub : Hub}
    (h : Elapses p r t) (hg : Going p r t) (hrelay : a = .relay → r.relay.current = none)
    (ha : r.Acted t.hub a [] decides hub r') (hnone : decides = []) (hp : r.phase = .waiting)
    (hp' : r'.phase = .overdue) (hdue : r.deadline ≤ t.hub.now) :
    Elapses p r' { t with
      hub := { hub with registry := t.hub.registry }
      stage := .running r'
      chores := if r'.phase = r.phase then t.chores else r'.phase.chores
      decided := t.decided ++ decides } := by
  have hin := hg.inOrder
  have hno : ∀ e ∈ t.events, e.state.isTerminal = true → False := by
    intro e he hterm
    have hearly := hin.early (Or.inl hp) he
    rw [hterm] at hearly
    exact absurd hearly (by simp)
  refine ⟨?_, ?_, ?_, ?_, ?_⟩
  · intro hn
    rw [h.looking hrelay ha hn]
    exact h.working hn
  · intro _
    rw [ha.terms.2, hin.timed.relay]
    exact hdue.trans (Nat.le_of_eq ha.terms.1.symm)
  · intro _
    refine Or.inl ⟨hp', Or.inl ?_⟩
    show _ ∈ (if r'.phase = r.phase then t.chores else r'.phase.chores)
    rw [if_neg (by rw [hp, hp']; simp), hp']
    exact List.mem_singleton.mpr rfl
  · intro _ c e hc hev hterm
    by_cases hn : t.next = .token
    · exact Or.inl hn
    · have hcur := h.looking hrelay ha hn
      exact (hno e (hin.logged_of_current (hcur ▸ hc) hev) hterm).elim
  · intro _ d hd hterm
    rw [hnone, List.append_nil] at hd
    exact (hno d.1 (hin.booked.decided_initial.subset (List.mem_map_of_mem hd)) hterm).elim

theorem stepped {r' : Run} {a : Run.Action} {decides : List (Event × DeliveryOutcome)} {hub : Hub}
    (h : Elapses p r t) (hg : Going p r t) (hrun : a = .run → t.chores = [])
    (hrelay : a = .relay → r.relay.current = none) (ha : r.Acted t.hub a [] decides hub r') :
    Elapses p r' { t with
      hub := { hub with registry := t.hub.registry }
      stage := .running r'
      chores := if r'.phase = r.phase then t.chores else r'.phase.chores
      decided := t.decided ++ decides } := by
  rcases ha.elapsed with hsame | ⟨_, hnone, hp, hp', hdue⟩
  · exact h.went_on hrun hrelay ha hsame
  · exact h.elapsed hg hrelay ha hnone hp hp' hdue

theorem turned {next : SendLook} (h : Elapses p r t) (hg : Going p r t)
    (hsome : r.relay.current.isSome = true)
    (ht : t.next.Turns t.hub.registry r.relay.handle t.hub.now r.relay.deadline next) :
    Elapses p r { t with next } := by
  refine { h with working := fun _ => hsome, last := ?_ }
  intro hel c e hc hev hterm
  cases ht with
  | opened _ hopen =>
      -- the entry is open, so somebody else is to close it
      have hlog := hg.inOrder.logged_of_current hc hev
      refine Or.inr ⟨rfl, (h.behind hg hel hlog hterm).resolve_left fun hcl => ?_⟩
      rw [hg.inOrder.booked.handle, hcl.isClosed] at hopen
      exact absurd hopen (by simp)
  | early _ hearly => exact absurd (h.due hel) (Nat.not_le.mpr hearly)
  | waits hn =>
      rcases h.last hel c e hc hev hterm with hl | hl
      · exact absurd (hl.symm.trans hn) (by simp)
      · exact absurd (hl.1.symm.trans hn) (by simp)

theorem settled {c : RelayCommand} {e : Event} {o : DeliveryOutcome} {registry : Registry}
    (h : Elapses p r t) (hs : t.stage = .running r) (hc : r.relay.current = some c)
    (he : c.event? = some e)
    (hr : t.next.Returns t.hub.registry r.relay.handle e t.hub.now r.relay.deadline o registry) :
    Elapses p { r with relay := r.relay.settle c o } (t.settle r c e o registry) where
  working := fun hn => absurd rfl hn
  due := h.due
  closed := fun hel => (h.closed hel).imp_right fun hcl =>
    hcl.imp_left fun hcl => closed_moved hcl (.settled hs hc he hr)
  last := fun _ _ _ hcur => absurd hcur (by simp [Relay.settle])
  decided hel d hd hterm := by
    rcases List.mem_append.mp hd with hold | hnew
    · exact h.decided hel d hold hterm
    · rw [List.mem_singleton.mp hnew] at hterm ⊢
      have hlast := h.last hel c e hc he hterm
      cases hr with
      | closed _ _ => exact Or.inl rfl
      | late hn _ =>
          refine Or.inr ⟨rfl, ?_⟩
          rcases hlast with hl | hl
          · exact absurd (hl.symm.trans hn) (by simp)
          · exact hl.2
      | offered hn _ =>
          rcases hlast with hl | hl
          · exact absurd (hl.symm.trans hn) (by simp)
          · exact absurd (hl.1.symm.trans hn) (by simp)

/-- At its deadline a run takes its id off the list. It is to close the entry itself then, unless
that is closed already, or somebody else has begun to close it. -/
theorem unlisted {rest : List Chore} (h : Elapses p r t) (hsec : t.Secured p)
    (hh : r.handle = p.handle) (hs : t.stage = .running r) (hc : t.chores = .unlist :: rest) :
    Elapses p r (t.chore r rest .unlist) := by
  have hclosed : t.hub.registry.Closed p.handle →
      (t.chore r rest .unlist).hub.registry.Closed p.handle :=
    fun hcl => closed_moved hcl (.chored hs hc)
  refine h.carry id rfl rfl (Nat.le_refl _) rfl rfl (fun ho => by simp [chore, ho]) ?_
  intro hel
  by_cases hp : r.phase = .overdue
  · have hpending := hsec.guarded.beginCloseEntry.1
    have hown : t.own = [] := by
      have horderly := hsec.orderly r hs
      rw [hc] at horderly
      unfold own
      rw [hc]
      exact horderly.no_entry
    rw [hown, List.append_nil, ← hh] at hpending
    by_cases hk : (t.hub.registry.beginCloseEntry r.handle).2.1 = some r.handle
    · refine Or.inl ⟨hp, Or.inr ?_⟩
      simp only [chore]
      rw [hk, hh]
      exact List.mem_cons_self
    · rcases hpending with hcl | hself | hothers
      · exact Or.inr (Or.inl (hh ▸ hcl))
      · exact absurd hself hk
      · by_cases hcl : Registry.isClosed (t.hub.registry.beginCloseEntry r.handle).2.2 r.handle
            = true
        · obtain ⟨e, he, _⟩ := (hsec.unlisted hh hs hc).guarded.held
          exact Or.inr (Or.inl (Registry.closed_of_isClosed he (hh ▸ hcl)))
        · refine Or.inr (Or.inr ?_)
          simp only [chore]
          simp [hp, hk, hothers, hcl]
  · rcases (h.closed hel).resolve_left fun hl => hp hl.1 with hcl | ho
    · exact Or.inr (Or.inl (hclosed hcl))
    · exact Or.inr (Or.inr (by simp [chore, ho]))

/-- The run does what it has to do next. -/
theorem chored {c : Chore} {rest : List Chore} (h : Elapses p r t)
    (hsec : t.Secured p) (hh : r.handle = p.handle) (hs : t.stage = .running r)
    (hc : t.chores = c :: rest) {r' : Run} (hs' : (t.chore r rest c).stage = .running r') :
    Elapses p r' (t.chore r rest c) := by
  have hclosed : t.hub.registry.Closed p.handle →
      (t.chore r rest c).hub.registry.Closed p.handle :=
    fun hcl => closed_moved hcl (.chored hs hc)
  have hmem : ∀ {d : Chore}, d ∈ t.chores → d = c ∨ d ∈ rest := by
    intro d hd
    rw [hc] at hd
    exact List.mem_cons.mp hd
  -- a chore that does not close the entry
  have hother : r'.phase = r.phase → (t.chore r rest c).overtaken = t.overtaken →
      (t.chore r rest c).chores = rest → c ≠ .unlist → c ≠ .close p.handle →
      r.deadlineElapsed = true →
      r'.phase = .overdue
          ∧ (.unlist ∈ (t.chore r rest c).chores ∨ .close p.handle ∈ (t.chore r rest c).chores)
        ∨ (t.chore r rest c).hub.registry.Closed p.handle
          ∨ (t.chore r rest c).overtaken = true := by
    intro hp ho hr hu hk hel
    rw [hp, ho, hr]
    refine (h.closed hel).imp (fun hl => ⟨hl.1, hl.2.imp ?_ ?_⟩) fun hr => hr.imp_left hclosed
    · exact fun hm => (hmem hm).resolve_left (Ne.symm hu)
    · exact fun hm => (hmem hm).resolve_left (Ne.symm hk)
  cases c with
  | unlist =>
      cases run_unique hs hs'
      exact h.unlisted hsec hh hs hc
  | close k =>
      cases run_unique hs hs'
      refine h.carry id rfl rfl (Nat.le_refl _) rfl rfl id fun hel => ?_
      by_cases hk : k = p.handle
      · obtain ⟨e, he, _⟩ := hsec.guarded.held
        subst hk
        exact Or.inr (Or.inl (Registry.closed_cancel he))
      · exact hother rfl rfl rfl (by simp) (by simpa using hk) hel
  | release =>
      cases run_unique hs hs'
      exact h.carry id rfl rfl (Nat.le_refl _) rfl rfl id
        (hother rfl rfl rfl (by simp) (by simp))
  | stamp =>
      cases hs'
      exact h.carry id rfl rfl (Nat.le_refl _) rfl rfl id
        (hother rfl rfl rfl (by simp) (by simp))

end Elapses

/-- **Preserved by every move.** -/
theorem elapses_moved (hst : t.Steady p) (hsec : t.Secured p)
    (h : ∀ r, t.stage = .running r → Elapses p r t) (hm : t.Moved t') :
    ∀ r', t'.stage = .running r' → Elapses p r' t' := by
  intro r' hr'
  cases hm with
  | same => exact h r' hr'
  | arranged _ _ _ => exact absurd hr' (by simp)
  | started hs =>
      cases hr'
      have hn := (hst.ready hs).next
      exact ⟨fun hne => absurd hn hne, fun hel => absurd hel (by simp [Run.start]),
        fun hel => absurd hel (by simp [Run.start]), fun hel => absurd hel (by simp [Run.start]),
        fun hel => absurd hel (by simp [Run.start])⟩
  | @copied r _ a _ e _ hs _ _ _ =>
      cases hr'
      obtain ⟨mirror, hmirror⟩ := r.relay.reflect_eq e
      exact (h r hs).keep id (by rw [hmirror]) (by rw [hmirror]) (Nat.le_refl _) rfl rfl id id
        fun hp _ => ⟨hp, rfl⟩
  | @handed r r' c hub hs hc ha =>
      cases hr'
      have hacted := (hst.going hs).acted_of_due hc rfl ha
      have hparty : c.party ≠ .relay := by
        intro heq
        have hdue := (hst.going hs).due c hc
        cases hdue <;> exact absurd heq (by simp)
      refine (h r hs).keep ?_ hacted.terms.2 (hacted.current hparty) (Nat.le_refl _) rfl rfl id id ?_
      · intro hel
        rcases hacted.elapsed with hsame | ⟨hnil, _⟩
        · exact hsame ▸ hel
        · exact absurd hnil (by simp)
      · intro hp _
        rcases hacted.handing (by simp) with hsame | ⟨hidle, _⟩
        · exact ⟨hsame.trans hp, rfl⟩
        · rw [hp] at hidle
          exact absurd hidle (by simp [RunPhase.chores])
  | @stepped r _ _ _ _ hs hrun hrelay ha =>
      cases hr'
      exact (h r hs).stepped (hst.going hs) hrun hrelay ha
  | @turned r _ hs hsome ht =>
      cases hs.symm.trans hr'
      exact (h r' hr').turned (hst.going hr') hsome ht
  | @settled r _ _ _ _ hs hc he hr =>
      cases hr'
      exact (h r hs).settled hs hc he hr
  | @chored r c rest hs hc =>
      exact (h r hs).chored hsec (hst.going hs).inOrder.handle hs hc hr'
  | yielded _ =>
      exact { h r' hr' with working := fun hn => absurd rfl hn, last := fun _ _ _ _ _ _ => Or.inl rfl }
  | @abandoned r hs _ hnil =>
      cases hr'
      exact (h r hs).keep id rfl rfl (Nat.le_refl _) rfl rfl id id fun _ hne => absurd hnil hne
  | @tended r _ _ _ hs =>
      cases hr'
      exact (h r hs).keep id rfl rfl (Nat.le_refl _) rfl rfl id id fun hp _ => ⟨hp, rfl⟩
  | stirred hstir =>
      exact (h r' hr').keep id rfl rfl (Nat.le_refl _) rfl rfl id (fun hc => hc.stirred hstir)
        fun hp _ => ⟨hp, rfl⟩
  | around hreg hnow =>
      exact (h r' hr').keep id rfl rfl hnow rfl rfl id (fun hc => by rw [hreg]; exact hc)
        fun hp _ => ⟨hp, rfl⟩

theorem elapses_play {hub : Hub} (h : (of p hub).Secured p) (ms : List Move) :
    ∀ r, ((of p hub).play ms).stage = .running r → Elapses p r ((of p hub).play ms) :=
  (play_induction (fun t => t.Secured p ∧ ∀ r, t.stage = .running r → Elapses p r t)
    (fun _ _ hst hm h => ⟨secured_moved hst h.1 hm, elapses_moved hst h.1 h.2 hm⟩)
    (steady_of p hub) ⟨h, fun _ hr => absurd hr (by simp [of])⟩ ms).2

/-! ## Closes in one go -/

/-- Holds of the moves that leave a close half done. -/
def Move.isHalf : Move → Bool
  | .beginClose _ | .beginCloseEntry _ => true
  | _ => false

/-- What a session does closes nothing in the name of others. -/
theorem act_closing (t : Passage) (r : Run) (a : Run.Action) : (t.act r a).closing = t.closing := by
  have hstep : ∀ a, (t.step r a).closing = t.closing := by
    intro a
    unfold step
    split
    · rfl
    · split <;> rfl
  have hproceed : ∀ a, (t.proceed r a).closing = t.closing := by
    intro a
    unfold proceed
    split
    · unfold hand
      split <;> rfl
    · exact hstep a
  unfold act
  split
  · split
    · exact hproceed .run
    · rename_i c rest _
      cases c <;> rfl
  · split
    · exact hstep .relay
    · split
      · unfold look
        split <;> rfl
      · rfl
  · exact hproceed _

theorem closing_move {m : Move} (hm : m.isHalf = false) (hnil : t.closing = []) :
    (t.move m).closing = [] := by
  cases m with
  | beginClose id => exact absurd hm (by simp [Move.isHalf])
  | beginCloseEntry h => exact absurd hm (by simp [Move.isHalf])
  | finishClose k =>
      dsimp only [move]
      rw [if_neg (by rw [hnil]; simp)]
      exact hnil
  | act a =>
      dsimp only [move]
      split
      · exact hnil
      · exact (act_closing t _ a).trans hnil
  | takeMirror => dsimp only [move]; split <;> exact hnil
  | start => dsimp only [move]; split <;> exact hnil
  | expire =>
      dsimp only [move]
      split
      · exact hnil
      · split <;> exact hnil
  | yield => dsimp only [move]; split <;> exact hnil
  | abandon =>
      dsimp only [move]
      split
      · exact hnil
      · split <;> exact hnil
  | popMirror =>
      dsimp only [move]
      split
      · exact hnil
      · split <;> exact hnil
  | abandonMirror => dsimp only [move]; split <;> exact hnil
  | behave table => dsimp only [move]; split <;> exact hnil
  | _ => exact hnil

theorem overtaken_moved (hm : t.Moved t') (hnil : t.closing = []) (ho : t.overtaken = false) :
    t'.overtaken = false := by
  cases hm with
  | @chored r c rest _ _ =>
      cases c with
      | unlist => simp [chore, ho, hnil]
      | _ => exact ho
  | _ => exact ho

/-- Where others close in one go, nobody is between the halves of a close. -/
theorem overtaken_play {ms : List Move} (hms : ∀ m ∈ ms, m.isHalf = false) (hnil : t.closing = [])
    (ho : t.overtaken = false) : (t.play ms).overtaken = false := by
  induction ms generalizing t with
  | nil => exact ho
  | cons m ms ih =>
      have hm := hms m List.mem_cons_self
      exact ih (fun m' h => hms m' (List.mem_cons_of_mem _ h)) (closing_move hm hnil)
        (overtaken_moved (t.move_moved m) hnil ho)

/-! ## What follows -/

/-- Holds where none of a session's parties can go on: the run has nothing to do before anything
else, and the relay waits. -/
def isSettled (t : Passage) (r : Run) : Bool :=
  t.chores.isEmpty && decide (t.next = .token) && r.isSettled t.hub

theorem of_settled (h : t.isSettled r = true) :
    t.chores = [] ∧ t.next = .token ∧ r.isSettled t.hub = true := by
  unfold isSettled at h
  simpa [and_assoc] using h

/-- **A session and its deadline**, at any time of its run. -/
structure Expires (p : Prepared) (t : Passage) (r : Run) : Prop where
  deadline : r.deadline = p.settings.deadlineFrom r.started
  /-- Where nobody can go on past the deadline, the session's entry is closed, or somebody else
  who took it off the list is yet to close it, -/
  closed : t.isSettled r = true → r.deadline ≤ t.hub.now →
    t.hub.registry.Closed p.handle ∨ p.handle ∈ t.closing
  /-- the relay has decided on everything that was handed over, -/
  decided : t.isSettled r = true → r.deadline ≤ t.hub.now →
    r.relay.commands = [] ∧ t.decided.map Prod.fst = t.events
  /-- and the run has returned, unless an extractor is blocked or the run was given up. -/
  returned : t.isSettled r = true → r.deadline ≤ t.hub.now →
    (∀ w ∈ r.workers, w.isBlocked t.hub.gates = false) → r.phase ≠ .abandoned →
    r.phase = .returned
  /-- A report of a deadline that elapsed says that the last event was not delivered: the entry
  was closed, or else somebody was about to close it when the deadline elapsed, and the time was
  up. -/
  outcome : r.phase = .returned → r.report.deadlineElapsed = true →
    r.report.completedDelivery = .closed
      ∨ r.report.completedDelivery = .timedOut ∧ t.overtaken = true
  /-- From the deadline on one event at most is delivered, and none unless the delivery had read
  the clock before. -/
  undelivered : r.deadline ≤ t.hub.now → ∀ ms, ∃ last,
    Course.delivered (t.play ms).decided = Course.delivered t.decided ++ last
      ∧ last.length ≤ 1 ∧ (t.next ≠ .slot → last = [])

/-- **No session hangs past its deadline**, and nobody need take a step as a whole. Whatever its
files, its sink and its extractors do: where none of its parties can go on any more, its relay has
decided on everything, its entry is closed or about to be, and if no extractor is blocked, the run
has returned. Where others close in one go, a report of a deadline that elapsed says that the entry
was closed. -/
theorem passage_expires {table : ExtractorTable} {settings : SessionSettings}
    {id : Option String} {files : List Submission} {hub hub' : Hub}
    (ho : Prepared.open? table settings id files hub = (.ok p, hub')) (ms : List Move) {r : Run}
    (hs : ((of p hub').play ms).stage = .running r) :
    Expires p ((of p hub').play ms) r
      ∧ ((∀ m ∈ ms, m.isHalf = false) → ((of p hub').play ms).overtaken = false) := by
  refine ⟨?_, fun hms => overtaken_play hms rfl rfl⟩
  have hst := steady_play (steady_of p hub') ms
  have hsec := secured_play (secured_of ho) ms
  have hel := elapses_play (secured_of ho) ms r hs
  generalize (of p hub').play ms = t at hs hst hsec hel
  have hin := (hst.going hs).inOrder
  refine ⟨hin.timed.deadline, ?_, ?_, ?_, ?_, ?_⟩
  · intro hset hdue
    obtain ⟨hnil, _, hset⟩ := of_settled hset
    have hcl : r.HasClosed := by
      rcases hin.logged.settled hin.booked hin.ticketed hin.timed hset hdue with hover | ⟨hp, _⟩
      · exact Or.inr (Or.inr hover)
      · exact Or.inr (Or.inl hp)
    have hcloses := (hsec.closed r hs hcl (by rw [hnil]; simp)).1
    unfold Closes own at hcloses
    rw [hnil, List.filterMap_nil, List.append_nil] at hcloses
    exact hcloses
  · intro hset hdue
    have hidle := hin.booked.idle hin.timed (of_settled hset).2.2 hdue
    exact ⟨hidle, hin.booked.decided_all hidle⟩
  · intro hset hdue hfree hgiven
    rcases hin.logged.settled hin.booked hin.ticketed hin.timed (of_settled hset).2.2 hdue with
      hover | ⟨_, w, hw, hblocked⟩
    · unfold Run.isOver at hover
      split at hover
      · assumption
      · exact absurd (by assumption) hgiven
      · exact absurd hover (by simp)
    · rw [hfree w hw] at hblocked
      exact absurd hblocked (by simp)
  · intro hp helapsed
    obtain ⟨front, hfront⟩ := Course.decided_returned hin.logged hin.booked hp
    exact hel.decided helapsed (Event.ofSession p.id .completed, r.outcome)
      (by rw [hfront]; exact List.mem_append_right _ (List.mem_singleton.mpr rfl)) rfl
  · intro hdue ms
    have hpast : r.relay.deadline ≤ t.hub.now := hin.timed.relay.symm ▸ hdue
    obtain ⟨last, hlast, hlen, hnone⟩ := Ceasing.play (Or.inl hpast) hst hs ms
    exact ⟨last, hlast, hlen, fun hn => hnone (Or.inl ⟨hpast, hn⟩)⟩

/-- A session of one file, whose extractor is blocked beyond the deadline. Nobody reads. At
first the run waits behind its closed entry; when the extractor is let go it returns. -/
theorem passage_expires_blocked :
    let f : Submission := { fileName := "a.txt", declared := none, size := 1, spool := 0 }
    let slow : Extractor := {
      name := "slow"
      extract := fun _ => .returned (.ok "hello")
      gate := some "g" }
    let table : ExtractorTable := { routes := [.when (fun _ => true) slow] }
    let p : Prepared := { id := "s", handle := 0, files := [f], table, settings := {} }
    let before : Hub := { spools := { files := [.readable [104]] } }
    let hub : Hub := { before with registry := ({} : Registry).opened "s", serial := 1 }
    let blocked : List Move := List.flatten [[.start], List.replicate 7 (.act .run),
      List.replicate 3 (.act (.worker 0)), [.wait 1000000], List.replicate 3 (.act .run),
      List.replicate 6 (.act .relay)]
    let freed : List Move := List.flatten [[.outside before.spools ["g"] 2],
      List.replicate 6 (.act (.worker 0)), List.replicate 4 (.act .run),
      List.replicate 6 (.act .relay), [.act .run, .act .run, .act .relay],
      List.replicate 4 (.act .run)]
    Prepared.open? table {} (some "s") [f] before = (.ok p, hub)
      ∧ (∃ r, ((of p hub).play blocked).stage = .running r
        ∧ ((of p hub).play blocked).isSettled r = true
        ∧ r.deadline ≤ ((of p hub).play blocked).hub.now ∧ r.phase = .overdue
        ∧ Expires p ((of p hub).play blocked) r)
      ∧ ∃ r, ((of p hub).play (blocked ++ freed)).stage = .running r ∧ r.phase = .returned
        ∧ r.report.deadlineElapsed = true
        ∧ Expires p ((of p hub).play (blocked ++ freed)) r := by
  intro f slow table p before hub blocked freed
  have ho : Prepared.open? table {} (some "s") [f] before = (.ok p, hub) := rfl
  have hblocked : ((of p hub).play blocked).run?.map (fun r =>
      (((of p hub).play blocked).isSettled r,
        decide (r.deadline ≤ ((of p hub).play blocked).hub.now), r.phase))
      = some (true, true, .overdue) := by decide +kernel
  have hfreed : ((of p hub).play (blocked ++ freed)).run?.map (fun r =>
      (r.phase, r.report.deadlineElapsed)) = some (.returned, true) := by decide +kernel
  refine ⟨ho, ?_, ?_⟩
  · obtain ⟨r, hr, heq⟩ := Option.map_eq_some_iff.mp hblocked
    obtain ⟨hset, hrest⟩ := Prod.mk.inj heq
    obtain ⟨hdue, hp⟩ := Prod.mk.inj hrest
    have hs := stage_of_run? hr
    exact ⟨r, hs, hset, of_decide_eq_true hdue, hp, (passage_expires ho blocked hs).1⟩
  · obtain ⟨r, hr, heq⟩ := Option.map_eq_some_iff.mp hfreed
    obtain ⟨hp, hel⟩ := Prod.mk.inj heq
    have hs := stage_of_run? hr
    exact ⟨r, hs, hp, hel, (passage_expires ho (blocked ++ freed) hs).1⟩

/-- What a session may come to at its deadline, and behind it. The same file, with a blocked
extractor at first. Its entry is found off the list and open when the deadline elapses, and its
report says that the time was up. Another session has a reader: its relay has read the clock
when the deadline comes, and delivers. A third one is given up, and never returns. -/
theorem deadline_overtaken :
    let f : Submission := { fileName := "a.txt", declared := none, size := 1, spool := 0 }
    let slow : Extractor := {
      name := "slow"
      extract := fun _ => .returned (.ok "hello")
      gate := some "g" }
    let table : ExtractorTable := { routes := [.when (fun _ => true) slow] }
    let p : Prepared := { id := "s", handle := 0, files := [f], table, settings := {} }
    let before : Hub := { spools := { files := [.readable [104]] } }
    let hub : Hub := { before with registry := ({} : Registry).opened "s", serial := 1 }
    let begun : List Move := List.flatten [[.start], List.replicate 7 (.act .run)]
    let freed : List Move := .outside before.spools ["g"] 2 :: List.replicate 6 (.act (.worker 0))
    let torn : List Move := List.flatten [begun, List.replicate 3 (.act (.worker 0)),
      [.beginCloseEntry 0, .wait 1000000, .act .run, .act .run], freed,
      List.replicate 4 (.act .run), List.replicate 18 (.act .relay),
      [.act .run, .act .run, .act .relay], List.replicate 4 (.act .run)]
    let late : List Move := [.ask (.take 0), .start, .act .run, .act .run, .act .relay,
      .act .relay, .act .relay, .wait 1000000]
    let given : List Move := List.flatten [begun, [.abandon], List.replicate 3 (.act .run),
      List.replicate 3 (.act (.worker 0)), freed, List.replicate 12 (.act .relay),
      [.wait 1000000]]
    Prepared.open? table {} (some "s") [f] before = (.ok p, hub)
      ∧ ((of p hub).play torn).run?.map (fun r =>
          (r.phase, r.report.deadlineElapsed, r.report.completedDelivery))
        = some (.returned, true, .timedOut)
      ∧ ((of p hub).play late).run?.map (fun r =>
          decide (r.deadline ≤ ((of p hub).play late).hub.now)) = some true
      ∧ Course.delivered ((of p hub).play late).decided = []
      ∧ Course.delivered ((of p hub).play (late ++ [.act .relay])).decided
        = [Event.ofSession "s" .uploadStarted]
      ∧ ((of p hub).play given).run?.map (fun r => (((of p hub).play given).isSettled r,
          decide (r.deadline ≤ ((of p hub).play given).hub.now),
          r.workers.any fun w => w.isBlocked ((of p hub).play given).hub.gates, r.phase))
        = some (true, true, false, .abandoned) := by
  intro f slow table p before hub begun freed torn late given
  refine ⟨rfl, ?_, ?_, ?_, ?_, ?_⟩ <;> decide +kernel

end Passage
end Intake
