import Intake.Proofs.Closeout
import Intake.Proofs.Mirror

/-!
# The mirror of a session, in small steps

A party gives the mirror its copy of an event before it hands the event over, and others act in
between. So the mirror is never behind: it has the copies of all events that were handed over, and
of those that are on their ways (`Passage.given`), and no copy is skipped for lack of room. Of each
party it has them in the order of the log. But two parties can be on their ways at the same time;
then the mirror may have their events in one order and the log in the other.

What its reader is told at the end depends on the order in which a run lets go of what it holds. One
that returns closes its entry before it lets go of the mirror. One that is given up closes its entry
last, so its mirror's reader can be told of the end while the entry is open.
-/

namespace Intake

/-! ## The last event -/

/-- Only the last event of a session is due as such, and then no worker has anything to tell. -/
theorem Run.Due.terminal {p : Prepared} {r : Run} {log : List Event} {c : Copying}
    (hd : r.Due log c) (hl : Logged p r log) (hterm : c.event.state.isTerminal = true) :
    c.party = .run ∧ (∀ w ∈ r.workers, w.phase.isOver = true)
      ∧ (r.phase = .submitting ∨ r.phase = .abandoned) := by
  cases hd with
  | announced _ => exact absurd hterm (by simp [Event.ofSession, EventState.isTerminal])
  | queued _ _ =>
      unfold FileTask.currentEvent Run.taskOf at hterm
      exact absurd hterm (by simp [Event.ofTask, EventState.isTerminal, TaskState.event])
  | submitted hp => exact ⟨rfl, hl.allOver (by rw [hp]; exact Nat.le_refl 5), Or.inl hp⟩
  | forgone hp hover _ => exact ⟨rfl, hover, Or.inr hp⟩
  | worked hw hsays =>
      have hcons := hl.consistent _ (List.mem_of_getElem? hw)
      obtain ⟨s, hstep, he, _⟩ := hsays r.table [] {}
      rw [(Worker.step?_tells hcons hstep).progress he] at hterm
      exact absurd hterm (by simp)

/-! ## The mirror -/

/-- The mirror of a session. -/
def Stage.mirror? : Stage → Option Mirror
  | .prepared p => p.mirror
  | .running r => r.relay.mirror

theorem Relay.reflect_readable (r : Relay) (e : Event) :
    (r.reflect e).mirror.any Mirror.readable = r.mirror.any Mirror.readable := by
  unfold Relay.reflect
  split
  · cases r.mirror with
    | none => rfl
    | some m =>
        show (m.copy e).readable = m.readable
        unfold Mirror.copy
        split <;> rfl
  · rfl

/-- Taking a copy leaves the reader where he is. -/
theorem Mirror.pop?_readable {m m' : Mirror} {e : Event} (h : m.pop? = some (e, m')) :
    m'.readable = m.readable := by
  unfold Mirror.pop? at h
  split at h
  · exact absurd h (by simp)
  · cases h
    rfl

namespace Passage

variable {p : Prepared} {t t' : Passage} {r : Run}

/-! ## What the mirror was given -/

/-- The events that were handed over or are on their ways. -/
def given (t : Passage) : List (Run.Action × Event) :=
  t.log ++ t.copying.map fun c => (c.party, c.event)

theorem map_given (t : Passage) :
    t.given.map Prod.snd = t.events ++ t.copying.map Copying.event := by
  unfold given events
  rw [List.map_append, List.map_map]
  rfl

/-- There is room for a copy of each. -/
theorem Going.given_le (hg : Going p r t) : t.given.length ≤ 4 * p.files.length + 2 := by
  obtain ⟨_, hl⟩ := Run.fits_all hg.inOrder.logged hg.parties hg.due
  have hle := hl.length_le
  rw [← map_given, List.length_map] at hle
  exact hle

/-- Whoever hands over what he has copied moves it to the end of the log. -/
theorem filter_handed {cs : List Copying} {c : Copying} (hn : (cs.map Copying.party).Nodup)
    (hc : c ∈ cs) (a : Run.Action) (f : Event → Bool) :
    ((c.party, c.event) :: (cs.filter fun d => d.party != c.party).map
        fun d => (d.party, d.event)).filter (fun x => x.1 == a && f x.2)
      = (cs.map fun d => (d.party, d.event)).filter fun x => x.1 == a && f x.2 := by
  induction cs with
  | nil => exact absurd hc (by simp)
  | cons d ds ih =>
      obtain ⟨hnew, hn⟩ := List.nodup_cons.mp hn
      by_cases hd : d.party = c.party
      · -- parties are about one event each
        have hcd : c = d := by
          rcases List.mem_cons.mp hc with heq | hm
          · exact heq
          · exact absurd (List.mem_map_of_mem hm) (hd ▸ hnew)
        subst hcd
        have hrest : (c :: ds).filter (fun d => d.party != c.party) = ds := by
          rw [List.filter_cons_of_neg (by simp)]
          refine List.filter_eq_self.mpr fun d hm => ?_
          have hne : d.party ≠ c.party := fun heq => hnew (heq ▸ List.mem_map_of_mem hm)
          simpa using hne
        rw [hrest, List.map_cons]
      · have hm : c ∈ ds := by
          rcases List.mem_cons.mp hc with heq | hm
          · exact absurd (congrArg Copying.party heq).symm hd
          · exact hm
        have hrest := ih hn hm
        have hkeep : (d :: ds).filter (fun d => d.party != c.party)
            = d :: ds.filter fun d => d.party != c.party :=
          List.filter_cons_of_pos (by simpa using hd)
        rw [hkeep, List.map_cons, List.map_cons]
        simp only [List.filter_cons] at hrest ⊢
        -- only one of the two can be of this party
        by_cases ha : d.party = a
        · have hca : (c.party == a && f c.event) = false := by
            have hne : c.party ≠ a := fun h => hd (ha.trans h.symm)
            simp [hne]
          rw [hca, if_neg (by simp)] at hrest ⊢
          rw [hrest]
        · have hda : (d.party == a && f d.event) = false := by simp [ha]
          simp only [hda, Bool.false_eq_true, if_false]
          exact hrest

/-- **What the mirror was given**: of each party what it has handed over or is about to, as far as
it is to be shown, and in the order of the log as long as no two were on their ways at once. -/
structure Given (p : Prepared) (t : Passage) : Prop where
  each : ∀ a, t.copies.filter (fun x => x.1 == a)
    = t.given.filter fun x => x.1 == a && Course.shown p x.2
  ordered : t.crossed = false →
    t.copies = t.given.filter (fun x => Course.shown p x.2) ∧ t.copying.length ≤ 1

/-- Each once. -/
theorem Given.perm (h : Given p t) : t.copies.Perm (t.given.filter fun x => Course.shown p x.2) := by
  -- how often an event is there can be counted among those of its party
  refine List.perm_iff_count.mpr fun x => ?_
  have heach := congrArg (List.count x) (h.each x.1)
  rw [← List.filter_filter, List.count_filter (by simp), List.count_filter (by simp)] at heach
  exact heach

theorem given_of (p : Prepared) (hub : Hub) : Given p (of p hub) :=
  ⟨fun _ => rfl, fun _ => ⟨rfl, Nat.zero_le 1⟩⟩

/-- **Preserved by every move.** -/
theorem given_moved (hst : t.Steady p) (h : Given p t) (hm : t.Moved t') : Given p t' := by
  cases hm with
  | @copied r r' a hub e es hs _ _ _ =>
      have hfilter : r.relay.filter.admits e = Course.shown p e := by
        unfold Course.shown
        rw [(hst.going hs).inOrder.booked.filter]
      have hgiven : (t.copy r a e hub.serial).given = t.given ++ [(a, e)] := by
        unfold given copy
        rw [List.map_append, List.append_assoc]
        rfl
      have hcopies : (t.copy r a e hub.serial).copies
          = t.copies ++ [(a, e)].filter fun x => Course.shown p x.2 := by
        unfold copy
        dsimp only
        rw [hfilter]
        by_cases hsh : Course.shown p e = true
        · simp [hsh]
        · simp [hsh]
      refine ⟨?_, ?_⟩
      · intro b
        rw [hgiven, hcopies, List.filter_append, List.filter_append, h.each b, List.filter_filter]
      · intro hcross
        have hparts : t.crossed = false ∧ t.copying = [] := by
          simpa [copy] using hcross
        rw [hgiven, hcopies, List.filter_append, (h.ordered hparts.1).1]
        refine ⟨rfl, ?_⟩
        show (t.copying ++ [_]).length ≤ 1
        rw [hparts.2]
        exact Nat.le_refl 1
  | @handed r r' c hub hs hc ha =>
      have hn := (hst.going hs).parties
      have hgiven : (t.deposit r' r.relay.mirror c).given = t.log ++ ((c.party, c.event) ::
          (t.copying.filter fun d => d.party != c.party).map fun d => (d.party, d.event)) := by
        unfold given deposit
        rw [List.append_assoc]
        rfl
      refine ⟨?_, ?_⟩
      · intro a
        rw [hgiven, List.filter_append, filter_handed hn hc, ← List.filter_append]
        exact h.each a
      · intro hcross
        obtain ⟨hcopies, hlen⟩ := h.ordered hcross
        -- there is nobody else
        have hone : t.copying = [c] := by
          obtain ⟨d, hd⟩ := List.length_eq_one_iff.mp
            (Nat.le_antisymm hlen (List.length_pos_of_mem hc))
          rw [hd] at hc ⊢
          rw [List.mem_singleton.mp hc]
        have hsame : (t.deposit r' r.relay.mirror c).given = t.given := by
          rw [hgiven]
          unfold given
          rw [hone]
          simp
        refine ⟨by rw [hsame]; exact hcopies, ?_⟩
        exact (List.length_filter_le _ _).trans hlen
  | @chored r c rest _ _ => cases c <;> exact { h with }
  | _ => exact { h with }

/-! ## No copy is skipped -/

theorem Watched.copies {old new : Option Mirror} {seen received shown : List Event} {n : Nat}
    (hw : Watched seen old new received)
    (h : ∀ m, old = some m → m.readable = true → m.capacity = n ∧ m.Copies seen shown) :
    ∀ m, new = some m → m.readable = true → m.capacity = n ∧ m.Copies received shown := by
  intro m' hm' hread
  cases hw with
  | same => exact h m' hm' hread
  | @popped m m₁ e hpop =>
      cases hm'
      have hbefore : m.readable = true := (Mirror.pop?_readable hpop).symm.trans hread
      obtain ⟨hcap, hcopies⟩ := h m rfl hbefore
      obtain ⟨hcopies', hcap'⟩ := hcopies.pop hpop
      exact ⟨hcap'.trans hcap, hcopies'⟩
  | left =>
      obtain ⟨m, _, rfl⟩ := Option.map_eq_some_iff.mp hm'
      exact absurd hread (by simp [Mirror.abandon])

/-- **What a mirror with a reader holds**: what it was given, as far as the reader has not received
it. -/
def Reflected (p : Prepared) (t : Passage) : Prop :=
  match t.stage with
  | .prepared q => ∀ m, q.mirror = some m → m.readable = true →
    m = { capacity := queueCapacity p.files.length }
  | .running r => ∀ m, r.relay.mirror = some m → m.readable = true →
    m.capacity = queueCapacity p.files.length ∧ m.Copies t.received (t.copies.map Prod.snd)

theorem Reflected.prepared (h : t.Reflected p) {q : Prepared} (hs : t.stage = .prepared q) :
    ∀ m, q.mirror = some m → m.readable = true →
      m = { capacity := queueCapacity p.files.length } := by
  unfold Reflected at h
  rw [hs] at h
  exact h

theorem Reflected.running (h : t.Reflected p) (hs : t.stage = .running r) :
    ∀ m, r.relay.mirror = some m → m.readable = true →
      m.capacity = queueCapacity p.files.length ∧ m.Copies t.received (t.copies.map Prod.snd) := by
  unfold Reflected at h
  rw [hs] at h
  exact h

/-- Moves that leave the mirror and what it was given alone. -/
theorem Reflected.keep (h : t.Reflected p) {r' : Run} (hs : t.stage = .running r)
    (hs' : t'.stage = .running r') (hm : r'.relay.mirror = r.relay.mirror)
    (hcopies : t'.copies = t.copies) (hreceived : t'.received = t.received) :
    t'.Reflected p := by
  have hrun := h.running hs
  rw [← hm, ← hcopies, ← hreceived] at hrun
  unfold Reflected
  rw [hs']
  exact hrun

/-- The mirror gets a copy. There is room for it. -/
theorem Reflected.copied {a : Run.Action} {hub : Hub} {e : Event} (h : t.Reflected p)
    (hs : t.stage = .running r) (hgiven : Given p (t.copy r a e hub.serial))
    (hg : Going p { r with relay := r.relay.reflect e } (t.copy r a e hub.serial)) :
    (t.copy r a e hub.serial).Reflected p := by
  have hroom := hg.given_le
  have hlen := hgiven.perm.length_eq.trans_le (List.length_filter_le _ _)
  intro m' hm' hread
  by_cases hadm : r.relay.filter.admits e = true
  · have hmirror : (r.relay.reflect e).mirror = r.relay.mirror.map (·.copy e) := by
      unfold Relay.reflect
      rw [if_pos hadm]
    obtain ⟨m, hm, rfl⟩ := Option.map_eq_some_iff.mp (hmirror.symm.trans hm')
    have hbefore : m.readable = true := by
      unfold Mirror.copy at hread
      split at hread <;> exact hread
    obtain ⟨hcap, hcopies⟩ := h.running hs m hm hbefore
    have hnew : (t.copy r a e hub.serial).copies = t.copies ++ [(a, e)] := by
      unfold copy
      rw [if_pos hadm]
    refine ⟨(m.foldl_capacity [e]).trans hcap, ?_⟩
    show Mirror.Copies _ t.received _
    rw [hnew, List.map_append]
    refine hcopies.copy ?_
    rw [hnew, List.length_append, List.length_singleton] at hlen
    rw [List.length_map, hcap]
    unfold queueCapacity
    omega
  · have hmirror : (r.relay.reflect e).mirror = r.relay.mirror := by
      unfold Relay.reflect
      rw [if_neg hadm]
    have hold : (t.copy r a e hub.serial).copies = t.copies := by
      unfold copy
      rw [if_neg hadm]
    rw [hold]
    exact h.running hs m' (hmirror.symm.trans hm') hread

/-- **Preserved by every move.** -/
theorem reflected_moved (hst : t.Steady p) (hgiven : Given p t) (h : t.Reflected p)
    (hm : t.Moved t') : t'.Reflected p := by
  have hst' := steady_moved hst hm
  have hgiven' := given_moved hst hgiven hm
  cases hm with
  | same => exact h
  | @arranged q mirror table hs hf =>
      intro m hm hread
      cases hf with
      | same => exact h.prepared hs m hm hread
      | taken =>
          rw [← (hst.ready hs).files]
          exact (Option.some.inj hm).symm
      | left =>
          obtain ⟨m', _, rfl⟩ := Option.map_eq_some_iff.mp hm
          exact absurd hread (by simp [Mirror.abandon])
  | @started q hs =>
      intro m hm hread
      have hr := hst.ready hs
      rw [h.prepared hs m hm hread]
      refine ⟨rfl, ?_⟩
      show Mirror.Copies _ t.received (t.copies.map Prod.snd)
      rw [hr.received, hr.copies]
      exact Mirror.Copies.start _
  | copied hs _ _ _ => exact h.copied hs hgiven' (hst'.going rfl)
  | handed hs _ _ => exact h.keep hs rfl rfl rfl rfl
  | stepped hs _ _ ha =>
      refine h.keep hs rfl ?_ rfl rfl
      rw [ha.copies]
      exact Option.map_id'
  | turned hs _ _ => exact h.keep hs hs rfl rfl rfl
  | settled hs _ _ _ => exact h.keep hs rfl rfl rfl rfl
  | @chored r c rest hs _ =>
      cases c with
      | stamp => exact h.keep hs rfl rfl rfl rfl
      | _ => exact h.keep hs hs rfl rfl rfl
  | abandoned hs _ _ => exact h.keep hs rfl rfl rfl rfl
  | tended _ _ _ hs hw => exact hw.copies (h.running hs)
  | yielded _ => exact h
  | stirred _ => exact h
  | around _ _ => exact h

/-! ## The last copy -/

/-- Once the last event was handed over, or is on its way, nobody begins with another one. -/
theorem Going.concluded (hg : Going p r t) {x : Run.Action × Event} (hx : x ∈ t.given)
    (hterm : x.2.state.isTerminal = true) {a : Run.Action} (hfree : t.Free a) {hub : Hub}
    {r' : Run} (ha : r.act? a t.hub = some (hub, r')) : r.handed t.hub a = [] := by
  have hl := hg.inOrder.logged
  -- the workers are over, and the run is past its last event, given up, or about it
  have hdone : (∀ w ∈ r.workers, w.phase.isOver = true)
      ∧ (6 ≤ r.phase.rank ∨ r.phase = .abandoned ∨ r.phase = .submitting ∧ ¬ t.Free .run) := by
    rcases List.mem_append.mp hx with hlog | hway
    · obtain ⟨hover, hrank⟩ := hl.told (List.mem_map_of_mem hlog) hterm
      exact ⟨hover, hrank.imp_right Or.inl⟩
    · obtain ⟨c, hc, rfl⟩ := List.mem_map.mp hway
      obtain ⟨hparty, hover, hp⟩ := (hg.due c hc).terminal hl hterm
      refine ⟨hover, Or.inr ?_⟩
      rcases hp with hp | hp
      · exact Or.inr ⟨hp, fun h => h c hc hparty⟩
      · exact Or.inl hp
  cases hh : r.handed t.hub a with
  | nil => rfl
  | cons e es =>
      exfalso
      have hphase : ∀ {ph : RunPhase}, r.phase = ph → ph.rank < 6 → ph ≠ .abandoned →
          ph ≠ .submitting → False := by
        intro ph hp hr hab hsub
        rcases hdone.2 with hrank | hgiven | hs
        · rw [hp] at hrank
          omega
        · exact hab (hp.symm.trans hgiven)
        · exact hsub (hp.symm.trans hs.1)
      have hdue : r.Due t.events ⟨a, e, t.hub.serial⟩ := (Run.due_of_handed ha hh).1
      cases hdue with
      | announced hp => exact hphase hp (by simp [RunPhase.rank]) (by simp) (by simp)
      | queued hp _ => exact hphase hp (by simp [RunPhase.rank]) (by simp) (by simp)
      | submitted hp =>
          rcases hdone.2 with hrank | hgiven | hs
          · rw [hp] at hrank
            exact absurd hrank (by simp [RunPhase.rank])
          · exact absurd (hp.symm.trans hgiven) (by simp)
          · exact hs.2 hfree
      | forgone hp _ _ => simp [Run.act?, Run.advance?, hp] at ha
      | worked hw hsays =>
          have hm := List.mem_of_getElem? hw
          obtain ⟨s, hstep, _, _⟩ := hsays r.table [] {}
          have hrun := (Worker.step?_tells (hl.consistent _ hm) hstep).running
          rw [hdone.1 _ hm] at hrun
          exact absurd hrun (by simp)

/-- **The copy of the last event is the last copy.** -/
def Final (t : Passage) : Prop :=
  ∀ x ∈ t.copies, x.2.state.isTerminal = true → t.copies.getLast? = some x

theorem final_moved (hst : t.Steady p) (hgiven : Given p t) (h : t.Final) (hm : t.Moved t') :
    t'.Final := by
  cases hm with
  | @copied r r' a hub e es hs hfree ha hh =>
      intro x hx hterm
      have hnot : x ∉ t.copies := by
        intro hold
        have hmem := (List.mem_filter.mp (hgiven.perm.mem_iff.mp hold)).1
        have hnone := (hst.going hs).concluded hmem hterm hfree ha
        rw [hh] at hnone
        exact absurd hnone (by simp)
      unfold copy at hx ⊢
      dsimp only at hx ⊢
      by_cases hadm : r.relay.filter.admits e = true
      · rw [if_pos hadm] at hx ⊢
        rw [List.mem_singleton.mp ((List.mem_append.mp hx).resolve_left hnot),
          List.getLast?_append]
        rfl
      · rw [if_neg hadm] at hx
        exact absurd hx hnot
  | @chored r c rest _ _ => cases c <;> exact h
  | _ => exact h

/-- **The invariant of a session and its mirror.** -/
structure Shows (p : Prepared) (t : Passage) : Prop where
  given : Given p t
  reflected : t.Reflected p
  final : t.Final

theorem shows_play {q : Prepared} {hub : Hub} (hq : q.mirror = none) (ms : List Move) :
    ((of q hub).play ms).Shows q := by
  refine play_induction (Shows q) (fun t t' hst hm h => ?_) (steady_of q hub) ?_ ms
  · exact ⟨given_moved hst h.given hm, reflected_moved hst h.given h.reflected hm,
      final_moved hst h.given h.final hm⟩
  · refine ⟨given_of q hub, ?_, fun x hx => absurd hx (by simp [of])⟩
    intro m hm
    rw [hq] at hm
    exact absurd hm (by simp)

/-! ## Whether there is a reader -/

/-- The mirror's reader is there. -/
def attended (t : Passage) : Bool :=
  t.stage.mirror?.any Mirror.readable

theorem attended_of_running (hs : t.stage = .running r) :
    t.attended = r.relay.mirror.any Mirror.readable := by
  unfold attended
  rw [hs]
  rfl

theorem step_attended (hs : t.stage = .running r) (a : Run.Action) :
    (t.step r a).attended = t.attended := by
  rw [attended_of_running hs]
  unfold step
  cases ha : r.act? a t.hub with
  | none => exact attended_of_running hs
  | some x =>
      obtain ⟨hub, r'⟩ := x
      dsimp only
      have hmirror := (Run.act_acted ha).copies
      cases hh : r.handed t.hub a with
      | cons e es => exact r.relay.reflect_readable e
      | nil =>
          rw [hh] at hmirror
          exact congrArg (Option.any Mirror.readable) (hmirror.trans Option.map_id')

theorem proceed_attended (hs : t.stage = .running r) (a : Run.Action) :
    (t.proceed r a).attended = t.attended := by
  unfold proceed
  split
  · unfold hand
    split
    · rfl
    · exact (attended_of_running hs).symm
  · exact step_attended hs a

/-- No party of the session sends the mirror's reader away. -/
theorem act_attended (hs : t.stage = .running r) (a : Run.Action) :
    (t.act r a).attended = t.attended := by
  unfold act
  cases a with
  | run =>
      dsimp only
      split
      · exact proceed_attended hs .run
      · rename_i c rest _
        cases c with
        | stamp => exact (attended_of_running hs).symm
        | _ => rfl
  | relay =>
      dsimp only
      split
      · exact step_attended hs .relay
      · split
        · unfold look
          split
          · rfl
          · exact (attended_of_running hs).symm
        · rfl
  | worker i => exact proceed_attended hs (.worker i)

/-- **Only the mirror's reader himself goes away.** -/
theorem attended_move (h : t.attended = true) {m : Move} (hm : m ≠ .abandonMirror) :
    (t.move m).attended = true := by
  cases hs : t.stage with
  | prepared q =>
      have hq : q.mirror.any Mirror.readable = true := by
        unfold attended at h
        rw [hs] at h
        exact h
      cases m with
      | abandonMirror => exact absurd rfl hm
      | takeMirror => simp only [move, hs]; rfl
      | start => simp only [move, hs]; exact hq
      | behave table => simp only [move, hs]; exact hq
      | yield => dsimp only [move]; split <;> exact h
      | finishClose k => dsimp only [move]; split <;> exact h
      | act a => simp only [move, hs]; exact h
      | expire => simp only [move, hs]; exact h
      | abandon => simp only [move, hs]; exact h
      | popMirror => simp only [move, hs]; exact h
      | _ => exact h
  | running r =>
      have hr := attended_of_running hs
      rw [h] at hr
      cases m with
      | abandonMirror => exact absurd rfl hm
      | takeMirror => simp only [move, hs]; exact h
      | start => simp only [move, hs]; exact h
      | behave table => simp only [move, hs]; exact hr.symm
      | yield => dsimp only [move]; split <;> exact h
      | finishClose k => dsimp only [move]; split <;> exact h
      | act a => simp only [move, hs]; exact (act_attended hs a).trans h
      | expire =>
          simp only [move, hs]
          split
          · exact hr.symm
          · exact h
      | abandon =>
          simp only [move, hs]
          split
          · exact hr.symm
          · exact h
      | popMirror =>
          simp only [move, hs]
          split
          · rename_i e relay hp
            obtain ⟨⟨e', m'⟩, hpop, heq⟩ := Option.map_eq_some_iff.mp hp
            cases heq
            obtain ⟨m, hm, hpop⟩ := Option.bind_eq_some_iff.mp hpop
            rw [hm] at hr
            exact (Mirror.pop?_readable hpop).trans hr.symm
          · exact h
      | _ => exact h

theorem attended_play (h : t.attended = true) {ms : List Move} (hms : .abandonMirror ∉ ms) :
    (t.play ms).attended = true := by
  induction ms generalizing t with
  | nil => exact h
  | cons m ms ih =>
      obtain ⟨hne, hms⟩ := not_or.mp (List.mem_cons.not.mp hms)
      exact ih (attended_move h (Ne.symm hne)) hms

theorem attended_taken (h : t.run? = none) : (t.move .takeMirror).attended = true := by
  unfold run? at h
  split at h
  · rename_i hs
    simp only [move, hs]
    rfl
  · exact absurd h (by simp)

/-! ## Without the mirror -/

/-- A passage without its mirror. -/
def unmirrored (t : Passage) : Passage :=
  { t with stage := t.stage.unmirrored, received := [] }

theorem unmirrored_twice (t : Passage) : t.unmirrored.unmirrored = t.unmirrored :=
  congrArg (fun stage => ({ t with stage, received := [] } : Passage)) t.stage.unmirrored_twice

theorem hand_unmirrored (t : Passage) (r : Run) (c : Copying) :
    (t.unmirrored.hand r.unmirrored c).unmirrored = (t.hand r c).unmirrored := by
  have htwice : r.unmirrored.unmirrored = r.unmirrored := rfl
  have hhub : t.unmirrored.hub = t.hub := rfl
  unfold hand
  rw [htwice, hhub]
  split
  · exact t.unmirrored_twice
  · rfl

theorem step_unmirrored (t : Passage) (r : Run) (a : Run.Action) :
    (t.unmirrored.step r.unmirrored a).unmirrored = (t.step r a).unmirrored := by
  have hhub : t.unmirrored.hub = t.hub := rfl
  have hhanded : r.unmirrored.handed t.hub a = r.handed t.hub a := by cases a <;> rfl
  unfold step
  rw [hhub, Run.act?_unmirrored]
  cases r.act? a t.hub with
  | none => exact t.unmirrored_twice
  | some x =>
      obtain ⟨hub, r'⟩ := x
      dsimp only [Option.map_some]
      rw [hhanded, Run.decides_unmirrored]
      cases r.handed t.hub a with
      | nil => rfl
      | cons e es =>
          -- without a mirror there is nothing to copy to
          have hleft : ({ r.unmirrored with relay := r.unmirrored.relay.reflect e } : Run).unmirrored
              = r.unmirrored := by
            show ({ r with relay := (r.relay.unmirrored.reflect e).unmirrored } : Run) = _
            rw [Relay.reflect_unmirrored]
            rfl
          have hright : ({ r with relay := r.relay.reflect e } : Run).unmirrored
              = r.unmirrored := by
            show ({ r with relay := (r.relay.reflect e).unmirrored } : Run) = _
            rw [Relay.unmirrored_reflect]
            rfl
          unfold copy unmirrored Stage.unmirrored
          dsimp only
          rw [hleft, hright]
          rfl

theorem proceed_unmirrored (t : Passage) (r : Run) (a : Run.Action) :
    (t.unmirrored.proceed r.unmirrored a).unmirrored = (t.proceed r a).unmirrored := by
  have hcopying : t.unmirrored.copying = t.copying := rfl
  unfold proceed
  rw [hcopying]
  split
  · exact t.hand_unmirrored r _
  · exact t.step_unmirrored r a

theorem look_unmirrored (hs : t.stage = .running r) (c : RelayCommand) (e : Event) :
    (t.unmirrored.look r.unmirrored c e).unmirrored = (t.look r c e).unmirrored := by
  obtain ⟨hub, stage⟩ := t
  cases hs
  unfold look
  simp only [unmirrored, Stage.unmirrored, Run.unmirrored, Relay.unmirrored]
  split <;> rfl

/-- A party of the session goes on. -/
theorem act_unmirrored (hs : t.stage = .running r) (a : Run.Action) :
    (t.unmirrored.act r.unmirrored a).unmirrored = (t.act r a).unmirrored := by
  have hchores : t.unmirrored.chores = t.chores := rfl
  have hcurrent : r.unmirrored.relay.current = r.relay.current := rfl
  unfold act
  cases a with
  | run =>
      dsimp only
      rw [hchores]
      cases hc : t.chores with
      | nil => exact t.proceed_unmirrored r .run
      | cons c rest =>
          obtain ⟨hub, stage⟩ := t
          cases hs
          cases c <;> rfl
  | relay =>
      dsimp only
      rw [hcurrent]
      cases r.relay.current with
      | none => exact t.step_unmirrored r .relay
      | some c =>
          dsimp only
          cases c.event? with
          | none => exact t.unmirrored_twice
          | some e => exact look_unmirrored hs c e
  | worker i => exact t.proceed_unmirrored r _

/-- The mirror's reader takes a copy, which nobody else sees. -/
theorem popMirror_unmirrored (hs : t.stage = .running r) :
    (t.move .popMirror).unmirrored = t.unmirrored := by
  obtain ⟨hub, stage⟩ := t
  cases hs
  dsimp only [move]
  split
  · rename_i e relay hp
    obtain ⟨⟨e', m⟩, _, heq⟩ := Option.map_eq_some_iff.mp hp
    cases heq
    rfl
  · rfl

/-- **Every move commutes with forgetting the mirror.** -/
theorem move_unmirrored (t : Passage) (m : Move) :
    (t.unmirrored.move m).unmirrored = (t.move m).unmirrored := by
  cases hs : t.stage with
  | prepared q =>
      obtain ⟨hub, stage⟩ := t
      cases hs
      cases m with
      | yield => dsimp only [move, unmirrored]; split <;> rfl
      | finishClose k => dsimp only [move, unmirrored]; split <;> rfl
      | _ => rfl
  | running r =>
      have hs' : t.unmirrored.stage = .running r.unmirrored := by
        unfold unmirrored
        rw [hs]
        rfl
      have hhub : t.unmirrored.hub = t.hub := rfl
      have hchores : t.unmirrored.chores = t.chores := rfl
      cases m with
      | act a =>
          dsimp only [move]
          rw [hs, hs']
          exact act_unmirrored hs a
      | popMirror =>
          -- on the left there is no mirror to take a copy from
          rw [popMirror_unmirrored hs, popMirror_unmirrored hs', unmirrored_twice]
      | expire =>
          have hphase : r.unmirrored.phase = r.phase := rfl
          have hdeadline : r.unmirrored.deadline = r.deadline := rfl
          dsimp only [move]
          rw [hs, hs']
          dsimp only
          rw [hphase, hdeadline, hhub, hchores]
          split
          · rfl
          · exact t.unmirrored_twice
      | abandon =>
          have hsuspended : r.unmirrored.isSuspended = r.isSuspended := rfl
          dsimp only [move]
          rw [hs, hs']
          dsimp only
          rw [hsuspended, hchores]
          split
          · rfl
          · exact t.unmirrored_twice
      | yield =>
          have hnext : t.unmirrored.next = t.next := rfl
          dsimp only [move]
          rw [hnext]
          split
          · exact unmirrored_twice { t with next := .token }
          · exact t.unmirrored_twice
      | finishClose k =>
          have hclosing : t.unmirrored.closing = t.closing := rfl
          dsimp only [move]
          rw [hclosing]
          split
          · exact unmirrored_twice { t with
              hub := { t.hub with registry := t.hub.registry.cancel k }
              closing := t.closing.erase k }
          · exact t.unmirrored_twice
      | _ =>
          obtain ⟨hub, stage⟩ := t
          cases hs
          rfl

theorem play_unmirrored (t : Passage) (ms : List Move) :
    (t.unmirrored.play ms).unmirrored = (t.play ms).unmirrored := by
  induction ms generalizing t with
  | nil => exact t.unmirrored_twice
  | cons m ms ih =>
      show ((t.unmirrored.move m).play ms).unmirrored = ((t.move m).play ms).unmirrored
      rw [← ih (t.unmirrored.move m), ← ih (t.move m), move_unmirrored]

/-- When the mirror's reader goes away, nobody else sees it. -/
theorem abandonMirror_unmirrored (t : Passage) :
    (t.move .abandonMirror).unmirrored = t.unmirrored := by
  obtain ⟨hub, stage⟩ := t
  cases stage <;> rfl

/-- **Whether the mirror's reader goes away or stays is all the same**, but for the mirror. -/
theorem play_abandonMirror (t : Passage) (before after : List Move) :
    (t.play (before ++ .abandonMirror :: after)).unmirrored
      = (t.play (before ++ after)).unmirrored := by
  rw [play_append, play_append]
  show (((t.play before).move .abandonMirror).play after).unmirrored = _
  rw [← play_unmirrored, abandonMirror_unmirrored, play_unmirrored]

/-- Reports that differ in nothing but the mirror. -/
theorem report_eq_of_unmirrored {r r' : Run} (h : r.unmirrored = r'.unmirrored) :
    r.report = { r'.report with
      relay := { r'.report.relay with mirrored := r.report.relay.mirrored } } := by
  have hreport : ∀ (r : Run) (n : Nat),
      ({ r.report with relay := { r.report.relay with mirrored := n } } : SessionReport)
        = { r.unmirrored.report with
            relay := { r.unmirrored.report.relay with mirrored := n } } :=
    fun _ _ => rfl
  rw [hreport r', ← h, ← hreport r]

theorem running_of_unmirrored (h : t.unmirrored = t'.unmirrored) (hs : t.stage = .running r) :
    ∃ r', t'.stage = .running r' ∧ r.unmirrored = r'.unmirrored := by
  have hstage : t.stage.unmirrored = t'.stage.unmirrored := congrArg Passage.stage h
  rw [hs] at hstage
  cases hs' : t'.stage with
  | prepared q =>
      rw [hs'] at hstage
      exact absurd hstage (by simp [Stage.unmirrored])
  | running r' =>
      rw [hs'] at hstage
      exact ⟨r', rfl, Stage.running.inj hstage⟩

/-! ## What follows -/

/-- **A session and its mirror**, at any time. -/
structure Reflects (p : Prepared) (t : Passage) (r : Run) : Prop where
  /-- As long as the mirror's reader is there, what it has received and what is there for it are
  all that the mirror was given. -/
  copies : ∀ m, r.relay.mirror = some m → m.readable = true →
    t.received ++ m.buffer = t.copies.map Prod.snd
  /-- These are the events that were handed over, or are on their ways, and are to be shown: each
  once, -/
  all : (t.copies.map Prod.snd).Perm
    ((t.events ++ t.copying.map Copying.event).filter (Course.shown p))
  /-- those of each party in the order of the log, -/
  each : ∀ a, t.copies.filter (fun x => x.1 == a)
    = t.given.filter fun x => x.1 == a && Course.shown p x.2
  /-- and all of them, unless two parties were on their ways at once. -/
  ordered : t.crossed = false → t.copies.map Prod.snd
    = (t.events ++ t.copying.map Copying.event).filter (Course.shown p)
  /-- When the run has returned, the last of them is the last of the session. -/
  last : r.phase = .returned →
    (t.copies.map Prod.snd).getLast? = some (Event.ofSession p.id .completed)
  /-- When the reader is told of the end, the session's entry is closed, or somebody else who took
  it off the list is yet to close it; or the run was given up and is yet to close it. -/
  ended : t.mirrorOver r = true → t.hub.registry.Closed p.handle ∨ p.handle ∈ t.closing
    ∨ r.phase = .abandoned ∧ t.chores ≠ []
  /-- When the run has returned and is through, the reader is told. -/
  told : r.phase = .returned → t.chores = [] → t.mirrorOver r = true

/-- Whoever let go of the mirror has closed the entry before, unless the run was given up. -/
theorem Secured.mirror_ended (hsec : t.Secured p) (hs : t.stage = .running r)
    (hover : t.mirrorOver r = true) : t.hub.registry.Closed p.handle ∨ p.handle ∈ t.closing
      ∨ r.phase = .abandoned ∧ t.chores ≠ [] := by
  have hholding : t.holding = false := by
    unfold mirrorOver at hover
    rw [Bool.and_eq_true] at hover
    simpa using hover.1
  have horderly := hsec.orderly r hs
  rw [hholding] at horderly
  have hphase : r.isOver = true := by
    by_contra hnot
    have hhold := horderly.holds (fun hp => hnot (by unfold Run.isOver; rw [hp]))
      (fun hp => hnot (by unfold Run.isOver; rw [hp]))
    exact absurd hhold (by simp)
  have hclosed : .unlist ∉ t.chores → t.own = [] →
      t.hub.registry.Closed p.handle ∨ p.handle ∈ t.closing := by
    intro hu hown
    have hcloses := (hsec.closed r hs (Or.inr (Or.inr hphase)) hu).1
    unfold Closes at hcloses
    rw [hown, List.append_nil] at hcloses
    exact hcloses
  -- one that was given up may still have its close before it
  rcases horderly.closed_of_released with hab | ⟨hu, hown⟩
  · by_cases hnil : t.chores = []
    · have hdone := hclosed (by rw [hnil]; simp) (by unfold own; rw [hnil]; rfl)
      exact hdone.imp_right Or.inl
    · exact Or.inr (Or.inr ⟨hab, hnil⟩)
  · exact (hclosed hu hown).imp_right Or.inl

/-- A run that has returned and is through is not among those who keep the mirror, nor is a
worker. -/
theorem Secured.mirror_told (hsec : t.Secured p) (hg : Going p r t) (hs : t.stage = .running r)
    (hp : r.phase = .returned) (hnil : t.chores = []) : t.mirrorOver r = true := by
  have horderly := hsec.orderly r hs
  rw [hp, hnil] at horderly
  have hbusy : r.busy = 0 := by
    refine List.countP_eq_zero.mpr fun w hw => ?_
    rw [hg.inOrder.logged.allOver (by rw [hp]; simp [RunPhase.rank]) w hw]
    simp
  have hgivers := hg.inOrder.booked.givers
  rw [hbusy, hp] at hgivers
  unfold mirrorOver
  rw [horderly.let_go, hgivers]
  rfl

/-- When the run has returned, the mirror was given the last event last. -/
theorem Shows.last (h : t.Shows p) (hg : Going p r t) (hp : r.phase = .returned) :
    (t.copies.map Prod.snd).getLast? = some (Event.ofSession p.id .completed) := by
  obtain ⟨front, hfront, _⟩ := wholeLog_last
    (hg.inOrder.logged.whole (by rw [hp]; simp [RunPhase.rank])).2
  have hmem : Event.ofSession p.id .completed ∈ t.log.map Prod.snd := by
    show _ ∈ t.events
    rw [hfront]
    exact List.mem_append_right _ List.mem_cons_self
  obtain ⟨x, hx, hlast⟩ := List.mem_map.mp hmem
  have hcopied : x ∈ t.copies := by
    refine h.given.perm.mem_iff.mpr (List.mem_filter.mpr ⟨List.mem_append_left _ hx, ?_⟩)
    rw [hlast]
    exact Course.shown_completed p p.id
  rw [List.getLast?_map, h.final x hcopied (by rw [hlast]; rfl), Option.map_some, hlast]

/-- **The mirror shows a session as it goes**, and nobody need take a step as a whole: whoever reads
the session's entry or does not, and however the clock and the parties take turns, it is never
behind, and skips nothing. If it is taken before the session runs, it has its reader until he goes
away, and when he does, nothing is different but for the mirror and the number of its copies. -/
theorem passage_reflects {table : ExtractorTable} {settings : SessionSettings}
    {id : Option String} {files : List Submission} {hub hub' : Hub}
    (ho : Prepared.open? table settings id files hub = (.ok p, hub')) (ms : List Move) {r : Run}
    (hs : ((of p hub').play ms).stage = .running r) :
    Reflects p ((of p hub').play ms) r
      ∧ (∀ before after, ms = before ++ .takeMirror :: after →
        ((of p hub').play before).run? = none → .abandonMirror ∉ after →
        ∃ m, r.relay.mirror = some m ∧ m.readable = true)
      ∧ ∀ before after, ms = before ++ .abandonMirror :: after →
        ((of p hub').play ms).unmirrored = ((of p hub').play (before ++ after)).unmirrored
          ∧ ∃ r', ((of p hub').play (before ++ after)).stage = .running r'
            ∧ r.report = { r'.report with
                relay := { r'.report.relay with mirrored := r.report.relay.mirrored } } := by
  obtain ⟨_, _, hp⟩ := Course.open?_ok ho
  have hst := steady_play (steady_of p hub') ms
  have hsec := secured_play (secured_of ho) ms
  have hshows : ((of p hub').play ms).Shows p := shows_play (by rw [hp]) ms
  refine ⟨?_, ?_, ?_⟩
  · generalize (of p hub').play ms = t at hs hst hsec hshows
    have hg := hst.going hs
    have hmap : ∀ l : List (Run.Action × Event), (l.filter fun x => Course.shown p x.2).map Prod.snd
        = (l.map Prod.snd).filter (Course.shown p) := fun l => List.filter_map.symm
    refine ⟨?_, ?_, hshows.given.each, ?_, hshows.last hg, hsec.mirror_ended hs,
      hsec.mirror_told hg hs⟩
    · intro m hm hread
      exact (hshows.reflected.running hs m hm hread).2.flow
    · rw [← map_given, ← hmap]
      exact hshows.given.perm.map Prod.snd
    · intro hcross
      rw [(hshows.given.ordered hcross).1, ← map_given, ← hmap]
  · intro before after hms hready hstays
    have hreader := attended_play (attended_taken hready) hstays
    have hall : (((of p hub').play before).move .takeMirror).play after = (of p hub').play ms := by
      rw [hms, play_append]
      rfl
    rw [hall, attended_of_running hs, Option.any_eq_true] at hreader
    exact hreader
  · intro before after hms
    have hsame := (of p hub').play_abandonMirror before after
    rw [← hms] at hsame
    obtain ⟨r', hs', hr⟩ := running_of_unmirrored hsame hs
    exact ⟨hsame, r', hs', report_eq_of_unmirrored hr⟩

/-- A session of one file that is not there. The mirror's reader takes two copies on the way and
leaves the others; nobody reads the entry, and the session ends past its deadline. Then the same,
but the reader goes away when he has two copies. -/
theorem passage_reflects_two_copies :
    let f : Submission := { fileName := "a.txt", declared := none, size := 0, spool := 0 }
    let p : Prepared := { id := "s", handle := 0, files := [f], table := {}, settings := {} }
    let hub : Hub := { registry := ({} : Registry).opened "s", serial := 1 }
    let begun : List Move := List.flatten [[.takeMirror, .start], List.replicate 7 (.act .run),
      [.popMirror, .popMirror]]
    let rest : List Move := List.flatten [List.replicate 8 (.act (.worker 0)),
      List.replicate 4 (.act .run), [.wait 1000000], List.replicate 18 (.act .relay),
      [.act .run, .act .run, .act .relay], List.replicate 5 (.act .run)]
    let read := (of p hub).play (begun ++ rest)
    let unread := (of p hub).play (begun ++ .abandonMirror :: rest)
    Prepared.open? {} {} (some "s") [f] {} = (.ok p, hub)
      ∧ read.received.map Event.state = [.uploadStarted, .fileQueued]
      ∧ (∃ r, read.stage = .running r ∧ r.phase = .returned ∧ read.chores = []
        ∧ Reflects p read r ∧ ∃ m, r.relay.mirror = some m ∧ m.readable = true)
      ∧ ∃ r r', unread.stage = .running r ∧ read.stage = .running r'
        ∧ r.report = { r'.report with
            relay := { r'.report.relay with mirrored := r.report.relay.mirrored } } := by
  intro f p hub begun rest read unread
  have ho : Prepared.open? {} {} (some "s") [f] {} = (.ok p, hub) := rfl
  have hread : read.run?.map (fun r => (r.phase, read.chores)) = some (.returned, []) := by
    decide +kernel
  have hunread : unread.run?.isSome = true := by decide +kernel
  have hstays : Move.abandonMirror ∉ begun.tail ++ rest := by simp [begun, rest]
  obtain ⟨r, hr, heq⟩ := Option.map_eq_some_iff.mp hread
  obtain ⟨hp, hnil⟩ := Prod.mk.inj heq
  have hs := stage_of_run? hr
  obtain ⟨r', hr'⟩ := Option.isSome_iff_exists.mp hunread
  have hs' := stage_of_run? hr'
  obtain ⟨hreflects, htaken, _⟩ := passage_reflects ho (begun ++ rest) hs
  obtain ⟨_, _, hleaves⟩ := passage_reflects ho (begun ++ .abandonMirror :: rest) hs'
  refine ⟨ho, by decide +kernel, ⟨r, hs, hp, hnil, hreflects, htaken [] _ rfl rfl hstays⟩, ?_⟩
  obtain ⟨_, s, hs'', hreport⟩ := hleaves begun rest rfl
  exact ⟨r', s, hs', hs'', hreport⟩

/-- Where a mirror parts from the log. Two workers give it their copies in one order and hand them
over in the other. When a run is given up, the reader is told of the end while the id is listed and
the entry open. And when the relay is taken down before the workers, the mirror gets their last
events, which no queue takes any more. -/
theorem mirror_apart_from_log :
    let f : Submission := { fileName := "a.txt", declared := none, size := 0, spool := 0 }
    let g : Submission := { fileName := "b.txt", declared := none, size := 0, spool := 1 }
    let p : Prepared := {
      id := "s", handle := 0, files := [f, g], table := {}, settings := { streamProgress := true } }
    let hub : Hub := { registry := ({} : Registry).opened "s", serial := 1 }
    let begun : List Move := .takeMirror :: .start :: List.replicate 10 (.act .run)
    let raced := (of p hub).play (begun ++ [.act (.worker 0), .act (.worker 1),
      .act (.worker 1), .act (.worker 0)])
    let given := (of p hub).play (begun ++ List.flatten [List.replicate 8 (.act (.worker 0)),
      List.replicate 8 (.act (.worker 1)), [.abandon, .act .run]])
    let struck := (of p hub).play (begun ++ List.replicate 2 (.act (.worker 0)))
    Prepared.open? {} { streamProgress := true } (some "s") [f, g] {} = (.ok p, hub)
      ∧ raced.copying = [] ∧ raced.copies.map Prod.snd ≠ raced.events.filter (Course.shown p)
      ∧ given.run?.map given.mirrorOver = some true ∧ given.hub.registry.lookup? "s" = some 0
      ∧ given.hub.registry.isClosed 0 = false
      ∧ struck.copying = [] ∧ struck.run?.map (fun r =>
          (r.killRelay.abortWorkers struck.hub).2.relay.mirror.map fun m =>
            (m.buffer.map Event.state).drop struck.events.length)
        = some (some [.fileProcessingError, .fileCompleted, .fileProcessingStarted,
            .fileProcessingError, .fileCompleted]) := by
  intro f g p hub begun raced given struck
  refine ⟨rfl, ?_, ?_, ?_, ?_, ?_, ?_, ?_⟩ <;> decide +kernel

end Passage
end Intake
