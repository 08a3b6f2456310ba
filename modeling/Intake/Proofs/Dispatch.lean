import Intake.Proofs.Ledger
import Intake.Proofs.Traffic

/-!
# A relay and all who use it

Any number of parties hand events to a relay without waiting, and others have an event
forwarded and wait to be told what became of it. In the end somebody tells the relay to stop
and waits for its counts. Meanwhile the relay takes its steps, the entry is used and closed by
others, and time passes. `Dispatch.move` is one step of one of these parties.

Two lists are kept beside the state: the commands that joined the relay's queue, and those that
it has carried out, with the outcomes of their events. Nothing is passed over, doubled or
forgotten between the two, each call is told the outcome of its own event, and the counts are
those of the events that came before the command to stop: `relay_orderly`.
-/

namespace Intake

/-- The event of a command that was given without waiting. -/
def RelayCommand.emitted? : RelayCommand → Option Event
  | forward e => some e
  | _ => none

/-! ## Those who use a relay -/

/-- A call to have an event forwarded. -/
structure Forwarding where
  event : Event
  state : SendState := .pending
  deriving DecidableEq, Repr

/-- How far the call is that has the relay stop. -/
inductive Closing where
  | uncalled
  | called
  | returned (stats : RelayStats)
  deriving DecidableEq, Repr

/-- A relay with all who use it. -/
structure Dispatch where
  now : Nat
  registry : Registry
  relay : Relay
  /-- Every event that was handed over, and whether it was accepted. -/
  emits : List (Event × Bool) := []
  /-- Every call to have an event forwarded. Its place is its ticket. -/
  forwards : List Forwarding := []
  closing : Closing := .uncalled
  /-- The commands that joined the queue, in order. -/
  accepted : List RelayCommand := []
  /-- The commands that were carried out, in order, with the outcomes of their events. -/
  handled : List (RelayCommand × DeliveryOutcome) := []

namespace Dispatch

/-- A relay that was started just now. -/
def of (now : Nat) (registry : Registry) (handle : Handle) (deadline capacity : Nat)
    (filter : ProgressFilter) (mirror : Option Mirror) : Dispatch :=
  { now, registry, relay := Relay.start handle deadline capacity filter mirror 2 }

/-- What can happen next. -/
inductive Move where
  /-- An event is handed over. -/
  | emit (e : Event)
  /-- A call is made to have an event forwarded. -/
  | forward (e : Event)
  /-- Such a call looks for its answer. -/
  | collect (i : Nat)
  /-- Such a call is given up. -/
  | cancel (i : Nat)
  /-- The relay takes a step. -/
  | step
  /-- One more party hands events over. -/
  | join
  /-- One party less does. -/
  | leave
  /-- The relay is told to stop. -/
  | stop
  /-- The call that told it so looks whether it has ended. -/
  | await
  /-- The mirror's reader takes a copy. -/
  | popMirror
  /-- The mirror's reader goes away. -/
  | abandonMirror
  | wait (ms : Nat)
  /-- Anything is asked of the registry, of the relay's entry or of others. -/
  | ask (c : Registry.Call)
  /-- The registry goes away and another one takes its place. -/
  | renew

/-- What becomes of a call to have an event forwarded. -/
def settle (t : Dispatch) (i : Nat) (f : Forwarding) (state : SendState) : Dispatch :=
  { t with forwards := t.forwards.set i { f with state } }

/-- The state of things after a move. A move that cannot be made changes nothing. Who tells the
relay to stop is a party until it has the counts, and nobody else leaves in its place. -/
def move (t : Dispatch) : Move → Dispatch
  | .emit e =>
    let (ok, relay) := t.relay.emit e
    { t with
      relay
      emits := t.emits ++ [(e, ok)]
      accepted := t.accepted ++ t.relay.joined (.forward e) }
  | .forward e =>
    let c := RelayCommand.forwardSync e t.forwards.length
    { t with
      relay := t.relay.submit e t.forwards.length
      forwards := t.forwards ++ [{ event := e }]
      accepted := t.accepted ++ t.relay.joined c }
  | .collect i =>
    match t.forwards[i]? with
    | none => t
    | some f =>
      match f.state, t.relay.answer? i with
      | .pending, some outcome => t.settle i f (.returned outcome)
      | _, _ => t
  | .cancel i =>
    match t.forwards[i]? with
    | none => t
    | some f =>
      match f.state with
      | .pending => { t.settle i f .cancelled with relay := t.relay.withdraw i }
      | _ => t
  | .step =>
    match t.relay.step? t.registry t.now with
    | none => t
    | some (relay, registry) =>
      { t with
        relay
        registry
        accepted := t.accepted ++ t.relay.admitted
        handled := t.handled ++ t.relay.handles t.registry t.now }
  | .join => { t with relay := t.relay.join }
  | .leave => if 1 < t.relay.givers then { t with relay := t.relay.release } else t
  | .stop =>
    match t.closing with
    | .uncalled =>
      { t with
        relay := t.relay.give .stop
        closing := .called
        accepted := t.accepted ++ t.relay.joined .stop }
    | _ => t
  | .await =>
    match t.closing, t.relay.ended with
    | .called, some _ =>
      { t with relay := t.relay.release, closing := .returned t.relay.finalStats }
    | _, _ => t
  | .popMirror =>
    match t.relay.popMirror? with
    | some (_, relay) => { t with relay }
    | none => t
  | .abandonMirror => { t with relay := t.relay.abandonMirror }
  | .wait ms => { t with now := t.now + ms }
  | .ask c => { t with registry := t.registry.call c }
  | .renew => { t with registry := t.registry.renew }

/-- The state of things after some moves. -/
def play (t : Dispatch) (ms : List Move) : Dispatch :=
  ms.foldl move t

/-- The commands that were accepted ahead of the one to stop. -/
def ahead (t : Dispatch) : List RelayCommand :=
  t.accepted.takeWhile (· != .stop)

/-- The commands that were given and not taken back. -/
def given (t : Dispatch) : List RelayCommand :=
  t.accepted ++ t.relay.waiting

/-- What a call to have an event forwarded is told: the outcome of its own event, or that the
relay has ended without it. -/
def Answer (t : Dispatch) (i : Nat) (e : Event) (outcome : DeliveryOutcome) : Prop :=
  (.forwardSync e i, outcome) ∈ t.handled
    ∨ (outcome = .closed ∧ t.relay.ended.isSome = true ∧ ∀ d ∈ t.handled, d.1.ticket? ≠ some i)

/-! ## The invariant -/

/-- **The invariant of a relay in use.** -/
structure Inv (t : Dispatch) : Prop where
  ledger : t.relay.Ledger t.accepted t.handled
  /-- A command for an answer was given by the call whose ticket it bears, and once. -/
  tickets : (t.given.filterMap RelayCommand.ticket?).Nodup
  named : ∀ e i, .forwardSync e i ∈ t.given → ∃ f, t.forwards[i]? = some f ∧ f.event = e
  /-- What was handed over joined the queue or was refused. It never waits. -/
  emitted : t.accepted.filterMap RelayCommand.emitted? = (t.emits.filter Prod.snd).map Prod.fst
  patient : ∀ c ∈ t.relay.waiting, c.emitted? = none
  pending : ∀ i f, t.forwards[i]? = some f → f.state = .pending → t.relay.ended = none →
    .forwardSync f.event i ∈ t.given
  returned : ∀ i f outcome, t.forwards[i]? = some f → f.state = .returned outcome →
    t.Answer i f.event outcome
  unstopped : t.closing = .uncalled → .stop ∉ t.given
  stopping : t.closing = .called → t.relay.ended = none → .stop ∈ t.given
  closed : ∀ s, t.closing = .returned s →
    t.relay.ended.isSome = true ∧ ∃ mirrored, s = { t.relay.stats with mirrored }
  givers : (∀ s, t.closing ≠ .returned s) → 0 < t.relay.givers

variable {t : Dispatch}

theorem inv_of (now : Nat) (registry : Registry) (handle : Handle) (deadline capacity : Nat)
    (filter : ProgressFilter) (mirror : Option Mirror) :
    (of now registry handle deadline capacity filter mirror).Inv where
  ledger := .start _ _ _ _ _ _
  tickets := List.nodup_nil
  named := fun e i h => absurd h (by simp [given, of, Relay.start])
  emitted := rfl
  patient := fun c h => absurd h (by simp [of, Relay.start])
  pending := fun i f h => absurd h (by simp [of])
  returned := fun i f o h => absurd h (by simp [of])
  unstopped := fun _ => by simp [given, of, Relay.start]
  stopping := fun h => absurd h (by simp [of])
  closed := fun s h => absurd h (by simp [of])
  givers := fun _ => by
    show 0 < 2
    omega

/-! ### Giving commands -/

section Giving

variable {r : Relay} {c x : RelayCommand} {more : List RelayCommand}

/-- A command that is given joins the queue or waits, if the relay has not ended. -/
theorem joined_delayed (r : Relay) (c : RelayCommand) :
    r.joined c ++ r.delayed c = if r.ended.isNone then [c] else [] := by
  unfold Relay.joined Relay.delayed
  cases r.ended.isNone <;> cases r.hasRoom <;> rfl

/-- One command more was given at most. -/
theorem joined_sublist (hmore : more = [] ∨ more = r.delayed c) :
    (r.joined c ++ more).Sublist [c] := by
  have hboth : (r.joined c ++ r.delayed c).Sublist [c] := by
    rw [joined_delayed]
    split <;> simp
  rcases hmore with rfl | rfl
  · rw [List.append_nil]
    exact (List.sublist_append_left _ _).trans hboth
  · exact hboth

/-- The commands that were given, with those that are new behind the others. -/
theorem given_perm (t : Dispatch) (joined more : List RelayCommand) :
    ((t.accepted ++ joined) ++ (t.relay.waiting ++ more)).Perm (t.given ++ (joined ++ more)) := by
  unfold given
  rw [List.append_assoc, List.append_assoc, ← List.append_assoc joined,
    ← List.append_assoc t.relay.waiting]
  refine List.Perm.append_left _ ?_
  exact (List.perm_append_comm.append_right more)

theorem mem_given (hmore : more = [] ∨ more = t.relay.delayed c)
    (hx : x ∈ (t.accepted ++ t.relay.joined c) ++ (t.relay.waiting ++ more)) :
    x ∈ t.given ∨ x = c := by
  rcases List.mem_append.mp ((given_perm t _ _).mem_iff.mp hx) with hold | hnew
  · exact Or.inl hold
  · exact Or.inr (List.mem_singleton.mp ((joined_sublist hmore).subset hnew))

theorem given_mem (joined more : List RelayCommand) (hx : x ∈ t.given) :
    x ∈ (t.accepted ++ joined) ++ (t.relay.waiting ++ more) :=
  (given_perm t _ _).mem_iff.mpr (List.mem_append_left _ hx)

/-- No ticket is given out twice. -/
theorem tickets_given (hi : t.Inv) (hmore : more = [] ∨ more = t.relay.delayed c)
    (hfresh : ∀ i, c.ticket? = some i → t.forwards[i]? = none) :
    (((t.accepted ++ t.relay.joined c) ++ (t.relay.waiting ++ more)).filterMap
      RelayCommand.ticket?).Nodup := by
  have hold : ∀ i ∈ t.given.filterMap RelayCommand.ticket?, ∃ f, t.forwards[i]? = some f := by
    intro i hm
    obtain ⟨x, hx, hxi⟩ := List.mem_filterMap.mp hm
    cases x with
    | forwardSync e j =>
        cases hxi
        obtain ⟨f, hf, _⟩ := hi.named e i hx
        exact ⟨f, hf⟩
    | _ => exact absurd hxi (by simp [RelayCommand.ticket?])
  refine (((given_perm t _ _).filterMap _).nodup_iff).mpr ?_
  rw [List.filterMap_append, List.nodup_append]
  have hsub := (joined_sublist hmore).filterMap RelayCommand.ticket?
  refine ⟨hi.tickets, hsub.nodup ?_, ?_⟩
  · rw [List.filterMap_cons, List.filterMap_nil]
    cases c.ticket? <;> simp
  · -- a new ticket is the number of a call that was not there yet
    intro i hm j hj hij
    subst hij
    obtain ⟨x, hx, hxi⟩ := List.mem_filterMap.mp (hsub.subset hj)
    rw [List.mem_singleton.mp hx] at hxi
    obtain ⟨f, hf⟩ := hold i hm
    rw [hfresh i hxi] at hf
    exact absurd hf (by simp)

end Giving

/-- **A command is given**, by whomever. Those that were given before stay what they were, and
so do the calls. -/
theorem inv_given (hi : t.Inv) {t' : Dispatch} {c : RelayCommand} (mirror : Option Mirror)
    (more : List RelayCommand)
    (hmore : more = [] ∨ more = t.relay.delayed c ∧ c.emitted? = none)
    (hrelay : t'.relay = { t.relay with
      mirror
      queue := t.relay.queue ++ t.relay.joined c
      waiting := t.relay.waiting ++ more })
    (haccepted : t'.accepted = t.accepted ++ t.relay.joined c) (hhandled : t'.handled = t.handled)
    (hfresh : ∀ i, c.ticket? = some i → t.forwards[i]? = none)
    (hkept : ∀ (i : Nat) f, t.forwards[i]? = some f → t'.forwards[i]? = some f)
    (hnew : ∀ (i : Nat) f, t'.forwards[i]? = some f → t.forwards[i]? = some f
      ∨ f.state = .pending ∧ c = .forwardSync f.event i ∧ more = t.relay.delayed c)
    (hnamed : ∀ e (i : Nat), c = .forwardSync e i → ∃ f, t'.forwards[i]? = some f ∧ f.event = e)
    (hemitted : t'.accepted.filterMap RelayCommand.emitted?
      = (t'.emits.filter Prod.snd).map Prod.fst)
    (hclosing : t'.closing = t.closing ∧ c ≠ .stop
      ∨ t.closing = .uncalled ∧ t'.closing = .called ∧ c = .stop ∧ more = t.relay.delayed c) :
    t'.Inv := by
  have hmore' : more = [] ∨ more = t.relay.delayed c := hmore.imp_right And.left
  have hgiven : t'.given
      = (t.accepted ++ t.relay.joined c) ++ (t.relay.waiting ++ more) := by
    unfold given
    rw [haccepted, hrelay]
  have hended : t'.relay.ended = t.relay.ended := by rw [hrelay]
  have hold : ∀ x ∈ t'.given, x ∈ t.given ∨ x = c := by
    rw [hgiven]
    exact fun x hx => mem_given hmore' hx
  have hkeep : ∀ x ∈ t.given, x ∈ t'.given := by
    rw [hgiven]
    exact fun x hx => given_mem _ _ hx
  -- a command that can wait is among those that were given, unless the relay has ended
  have hjoins : more = t.relay.delayed c → t.relay.ended = none → c ∈ t'.given := by
    intro hdelayed he
    rw [hgiven, (given_perm t _ _).mem_iff, hdelayed, joined_delayed, he]
    exact List.mem_append_right _ (List.mem_singleton_self c)
  refine ⟨?_, ?_, ?_, hemitted, ?_, ?_, ?_, ?_, ?_, ?_, ?_⟩
  · rw [hrelay, haccepted, hhandled]
    exact hi.ledger.give _ mirror hmore'
  · rw [hgiven]
    exact tickets_given hi hmore' hfresh
  · intro e i hx
    rcases hold _ hx with hx | hx
    · obtain ⟨f, hf, hfe⟩ := hi.named e i hx
      exact ⟨f, hkept i f hf, hfe⟩
    · exact hnamed e i hx.symm
  · intro x hx
    rw [hrelay] at hx
    rcases List.mem_append.mp hx with hx | hx
    · exact hi.patient x hx
    · rcases hmore with hnil | ⟨_, hc⟩
      · rw [hnil] at hx
        exact absurd hx (by simp)
      · have hsub := joined_sublist hmore'
        rw [List.mem_singleton.mp (hsub.subset (List.mem_append_right _ hx))]
        exact hc
  · intro i f hf hp he
    rw [hended] at he
    rcases hnew i f hf with hf | ⟨_, hc, hdelayed⟩
    · exact hkeep _ (hi.pending i f hf hp he)
    · rw [← hc]
      exact hjoins hdelayed he
  · intro i f outcome hf hr
    unfold Answer
    rw [hhandled, hended]
    rcases hnew i f hf with hf | ⟨hp, _⟩
    · exact hi.returned i f outcome hf hr
    · exact absurd (hp.symm.trans hr) (by simp)
  · intro hu hs
    rcases hclosing with ⟨hsame, hne⟩ | ⟨_, hcalled, _⟩
    · rcases hold _ hs with hs | hs
      · exact hi.unstopped (hsame.symm.trans hu) hs
      · exact hne hs.symm
    · exact absurd (hu.symm.trans hcalled) (by simp)
  · intro hc he
    rw [hended] at he
    rcases hclosing with ⟨hsame, _⟩ | ⟨_, _, hstop, hdelayed⟩
    · exact hkeep _ (hi.stopping (hsame.symm.trans hc) he)
    · rw [← hstop]
      exact hjoins hdelayed he
  · intro s hs
    rw [hrelay]
    rcases hclosing with ⟨hsame, _⟩ | ⟨_, hcalled, _⟩
    · exact hi.closed s (hsame.symm.trans hs)
    · exact absurd (hs.symm.trans hcalled) (by simp)
  · intro hopen
    rw [hrelay]
    refine hi.givers fun s hs => ?_
    rcases hclosing with ⟨hsame, _⟩ | ⟨hu, _⟩
    · exact hopen s (hsame.trans hs)
    · exact absurd (hu.symm.trans hs) (by simp)

theorem inv_emit (hi : t.Inv) (e : Event) : (t.move (.emit e)).Inv := by
  obtain ⟨mirror, hm⟩ := t.relay.emit_split e
  have hmove : t.move (.emit e) = { t with
      relay := { t.relay with mirror, queue := t.relay.queue ++ t.relay.joined (.forward e) }
      emits := t.emits ++ [(e, t.relay.ended.isNone && t.relay.hasRoom)]
      accepted := t.accepted ++ t.relay.joined (.forward e) } := by
    dsimp only [move]
    rw [hm]
  rw [hmove]
  refine inv_given hi mirror [] (Or.inl rfl) ?_ rfl rfl
    (fun i h => absurd h (by simp [RelayCommand.ticket?])) (fun i f hf => hf)
    (fun i f hf => Or.inl hf) (fun e' i h => absurd h (by simp)) ?_ (Or.inl ⟨rfl, by simp⟩)
  · rw [List.append_nil]
  · show (t.accepted ++ t.relay.joined (.forward e)).filterMap _
      = ((t.emits ++ [(e, _)]).filter _).map _
    rw [List.filterMap_append, hi.emitted, List.filter_append, List.map_append]
    unfold Relay.joined
    cases t.relay.ended.isNone && t.relay.hasRoom <;> rfl

/-- What joins the queue for a command that was not handed over. -/
theorem emitted_joined {c : RelayCommand} (hi : t.Inv) (hc : c.emitted? = none) :
    (t.accepted ++ t.relay.joined c).filterMap RelayCommand.emitted?
      = (t.emits.filter Prod.snd).map Prod.fst := by
  rw [List.filterMap_append, hi.emitted]
  unfold Relay.joined
  cases t.relay.ended.isNone && t.relay.hasRoom <;> simp [hc]

theorem inv_forward (hi : t.Inv) (e : Event) : (t.move (.forward e)).Inv := by
  obtain ⟨mirror, hm⟩ := t.relay.submit_split e t.forwards.length
  have hmove : t.move (.forward e) = { t with
      relay := { t.relay with
        mirror
        queue := t.relay.queue ++ t.relay.joined (.forwardSync e t.forwards.length)
        waiting := t.relay.waiting ++ t.relay.delayed (.forwardSync e t.forwards.length) }
      forwards := t.forwards ++ [{ event := e }]
      accepted := t.accepted ++ t.relay.joined (.forwardSync e t.forwards.length) } := by
    dsimp only [move]
    rw [hm]
  rw [hmove]
  refine inv_given hi mirror _ (Or.inr ⟨rfl, rfl⟩) rfl rfl rfl ?_ ?_ ?_ ?_ (emitted_joined hi rfl)
    (Or.inl ⟨rfl, by simp⟩)
  · intro i h
    cases h
    exact List.getElem?_eq_none (Nat.le_refl _)
  · intro i f hf
    rw [← hf]
    exact List.getElem?_append_left (List.getElem?_eq_some_iff.mp hf).1
  · intro i f hf
    rcases getElem?_concat_back hf with hold | ⟨rfl, rfl⟩
    · exact Or.inl hold
    · exact Or.inr ⟨rfl, rfl, rfl⟩
  · intro e' i h
    obtain ⟨rfl, rfl⟩ := RelayCommand.forwardSync.inj h
    exact ⟨_, List.getElem?_concat_length, rfl⟩

theorem inv_stop (hi : t.Inv) : (t.move .stop).Inv := by
  dsimp only [move]
  split
  · rename_i hc
    refine inv_given hi t.relay.mirror _ (Or.inr ⟨rfl, rfl⟩) (t.relay.give_split .stop)
      rfl rfl (fun i h => absurd h (by simp [RelayCommand.ticket?])) (fun i f hf => hf)
      (fun i f hf => Or.inl hf) (fun e i h => absurd h (by simp)) (emitted_joined hi rfl)
      (Or.inr ⟨hc, rfl, rfl, rfl⟩)
  · exact hi

/-! ### Calls and the relay's steps -/

/-- Only these parts of a relay are looked at. -/
theorem inv_relay (hi : t.Inv) {relay : Relay} {closing : Closing}
    (hl : relay.Ledger t.accepted t.handled) (he : relay.ended = t.relay.ended)
    (hw : relay.waiting = t.relay.waiting) (hs : relay.stats = t.relay.stats)
    (hg : (∀ s, closing ≠ .returned s) → 0 < relay.givers)
    (hc : closing = t.closing ∨ t.relay.ended.isSome = true
      ∧ ∃ mirrored, closing = .returned { t.relay.stats with mirrored }) :
    Inv { t with relay, closing } := by
  have hgiven : given { t with relay, closing } = t.given := by
    unfold given
    rw [← hw]
  refine ⟨hl, ?_, ?_, hi.emitted, ?_, ?_, ?_, ?_, ?_, ?_, hg⟩
  · rw [hgiven]
    exact hi.tickets
  · rw [hgiven]
    exact hi.named
  · show ∀ c ∈ relay.waiting, _
    rw [hw]
    exact hi.patient
  · rw [hgiven]
    intro i f hf hp hend
    exact hi.pending i f hf hp (he.symm.trans hend)
  · intro i f outcome hf hr
    unfold Answer
    dsimp only
    rw [he]
    exact hi.returned i f outcome hf hr
  · rw [hgiven]
    intro hu
    rcases hc with hc | ⟨_, _, hc⟩
    · exact hi.unstopped (hc.symm.trans hu)
    · exact absurd (hc.symm.trans hu) (by simp)
  · rw [hgiven]
    intro hcalled hend
    rcases hc with hc | ⟨_, _, hc⟩
    · exact hi.stopping (hc.symm.trans hcalled) (he.symm.trans hend)
    · exact absurd (hc.symm.trans hcalled) (by simp)
  · intro s hret
    dsimp only at hret ⊢
    rw [he, hs]
    rcases hc with hc | ⟨hend, mirrored, hc⟩
    · exact hi.closed s (hc.symm.trans hret)
    · rw [hc] at hret
      cases hret
      exact ⟨hend, mirrored, rfl⟩

/-- A call that was pending gets another state. -/
theorem inv_settle (hi : t.Inv) {i : Nat} {f : Forwarding} {state : SendState} {relay : Relay}
    (hf : t.forwards[i]? = some f)
    (hl : relay.Ledger t.accepted t.handled) (he : relay.ended = t.relay.ended)
    (hw : relay.waiting.Sublist t.relay.waiting)
    (hkept : ∀ c ∈ t.relay.waiting, c.ticket? ≠ some i → c ∈ relay.waiting)
    (hs : relay.stats = t.relay.stats) (hg : relay.givers = t.relay.givers)
    (hp : state ≠ .pending)
    (hstate : ∀ outcome, state = .returned outcome → t.Answer i f.event outcome) :
    Inv { t.settle i f state with relay } := by
  have hsub : (given { t.settle i f state with relay }).Sublist t.given :=
    hw.append_left t.accepted
  have hkeep : ∀ x ∈ t.given, x.ticket? ≠ some i → x ∈ given { t.settle i f state with relay } := by
    intro x hx hne
    rcases List.mem_append.mp hx with hx | hx
    · exact List.mem_append_left _ hx
    · exact List.mem_append_right _ (hkept x hx hne)
  -- the call itself is not pending any more, and the others are what they were
  have hset : ∀ j g, (t.forwards.set i { f with state })[j]? = some g →
      (j ≠ i ∧ t.forwards[j]? = some g) ∨ (j = i ∧ g = { f with state }) := by
    intro j g hj
    by_cases hij : i = j
    · subst hij
      rw [List.getElem?_set_self (List.getElem?_eq_some_iff.mp hf).1] at hj
      exact Or.inr ⟨rfl, (Option.some.inj hj).symm⟩
    · rw [List.getElem?_set_ne hij] at hj
      exact Or.inl ⟨Ne.symm hij, hj⟩
  refine ⟨hl, ?_, ?_, hi.emitted, ?_, ?_, ?_, ?_, ?_, ?_, ?_⟩
  · exact hi.tickets.sublist (hsub.filterMap _)
  · intro e j hx
    obtain ⟨g, hgj, hge⟩ := hi.named e j (hsub.subset hx)
    by_cases hij : i = j
    · subst hij
      rw [hf] at hgj
      cases hgj
      exact ⟨_, List.getElem?_set_self (List.getElem?_eq_some_iff.mp hf).1, hge⟩
    · exact ⟨g, (List.getElem?_set_ne hij).trans hgj, hge⟩
  · exact fun c hc => hi.patient c (hw.subset hc)
  · intro j g hj hpj hend
    rcases hset j g hj with ⟨hne, hj⟩ | ⟨_, rfl⟩
    · refine hkeep _ (hi.pending j g hj hpj (he.symm.trans hend)) ?_
      intro heq
      exact hne (Option.some.inj heq)
    · exact absurd hpj hp
  · intro j g outcome hj hr
    unfold Answer settle
    dsimp only
    rw [he]
    rcases hset j g hj with ⟨_, hj⟩ | ⟨rfl, rfl⟩
    · exact hi.returned j g outcome hj hr
    · exact hstate outcome hr
  · exact fun hu hx => hi.unstopped hu (hsub.subset hx)
  · intro hc hend
    exact hkeep _ (hi.stopping hc (he.symm.trans hend)) (by simp [RelayCommand.ticket?])
  · intro s hret
    dsimp only
    rw [he, hs]
    exact hi.closed s hret
  · intro hopen
    dsimp only
    rw [hg]
    exact hi.givers hopen

/-- **Preserved by every step of the relay.** -/
theorem inv_step {relay : Relay} {registry : Registry} (hi : t.Inv)
    (hs : t.relay.step? t.registry t.now = some (relay, registry)) :
    Inv { t with
      relay
      registry
      accepted := t.accepted ++ t.relay.admitted
      handled := t.handled ++ t.relay.handles t.registry t.now } := by
  obtain ⟨he, hstep⟩ := Relay.step?_stepped hs
  obtain ⟨hsub, hsame, hg⟩ := hstep.waiting
  -- nobody has the counts of a relay that has not ended
  have hopen : ∀ s, t.closing ≠ .returned s := by
    intro s hret
    have hended := (hi.closed s hret).1
    rw [he] at hended
    exact absurd hended (by simp)
  have hgiven : (t.accepted ++ t.relay.admitted ++ relay.waiting).Sublist t.given := by
    unfold given
    rw [List.append_assoc]
    exact hsub.append_left _
  have hgiven' : relay.ended = none →
      t.accepted ++ t.relay.admitted ++ relay.waiting = t.given := by
    intro hend
    unfold given
    rw [List.append_assoc, hsame hend]
  refine ⟨hi.ledger.step (hi.givers hopen) he hstep, hi.tickets.sublist (hgiven.filterMap _), ?_,
    ?_, ?_, ?_, ?_, ?_, ?_, ?_, ?_⟩
  · exact fun e i hx => hi.named e i (hgiven.subset hx)
  · rw [List.filterMap_append, hi.emitted]
    have hnone : t.relay.admitted.filterMap RelayCommand.emitted? = [] := by
      rw [List.filterMap_eq_nil_iff]
      exact fun c hc => hi.patient c (hsub.subset (List.mem_append_left _ hc))
    rw [hnone, List.append_nil]
  · exact fun c hc => hi.patient c (hsub.subset (List.mem_append_right _ hc))
  · intro i f hf hp hend
    show _ ∈ t.accepted ++ t.relay.admitted ++ relay.waiting
    rw [hgiven' hend]
    exact hi.pending i f hf hp he
  · intro i f outcome hf hr
    rcases hi.returned i f outcome hf hr with hm | ⟨_, hend, _⟩
    · exact Or.inl (List.mem_append_left _ hm)
    · rw [he] at hend
      exact absurd hend (by simp)
  · exact fun hu hx => hi.unstopped hu (hgiven.subset hx)
  · intro hc hend
    show _ ∈ t.accepted ++ t.relay.admitted ++ relay.waiting
    rw [hgiven' hend]
    exact hi.stopping hc he
  · exact fun s hret => absurd hret (hopen s)
  · intro _
    show 0 < relay.givers
    rw [hg]
    exact hi.givers hopen

/-! ### Answers -/

/-- What was carried out is what was accepted first. -/
theorem Inv.handled_prefix (hi : t.Inv) : t.handled.map Prod.fst <+: t.accepted := by
  cases he : t.relay.ended with
  | none =>
      rw [hi.ledger.flow he]
      exact List.prefix_append _ _
  | some how => exact (List.prefix_append _ _).trans (hi.ledger.ended how he).2

/-- The command of a call that was carried out. -/
theorem Inv.handled_ticket (hi : t.Inv) {i : Nat} {f : Forwarding}
    (hf : t.forwards[i]? = some f) {d : RelayCommand × DeliveryOutcome} (hd : d ∈ t.handled)
    (hi' : d.1.ticket? = some i) : d.1 = .forwardSync f.event i := by
  obtain ⟨c, outcome⟩ := d
  cases c with
  | forwardSync e j =>
      cases hi'
      have hgiven : RelayCommand.forwardSync e i ∈ t.given :=
        List.mem_append_left _ (hi.handled_prefix.subset (List.mem_map_of_mem hd))
      obtain ⟨g, hg, hge⟩ := hi.named e i hgiven
      rw [hf] at hg
      cases hg
      rw [hge]
  | _ => exact absurd hi' (by simp [RelayCommand.ticket?])

/-- No two commands with one ticket are carried out. -/
theorem Inv.handled_once (hi : t.Inv) {i : Nat} {d d' : RelayCommand × DeliveryOutcome}
    (hd : d ∈ t.handled) (hd' : d' ∈ t.handled) (ht : d.1.ticket? = some i)
    (ht' : d'.1.ticket? = some i) : d = d' := by
  have hnodup : (t.handled.filterMap fun d => d.1.ticket?).Nodup := by
    have hsub := (hi.handled_prefix.sublist.trans
      (List.sublist_append_left t.accepted t.relay.waiting)).filterMap RelayCommand.ticket?
    rw [List.filterMap_map] at hsub
    exact hi.tickets.sublist hsub
  by_contra hne
  have hpair := List.pairwise_filterMap.mp hnodup
  have : Std.Symm fun a b : RelayCommand × DeliveryOutcome =>
      ∀ i, a.1.ticket? = some i → ∀ j, b.1.ticket? = some j → i ≠ j :=
    ⟨fun a b hab i hi j hj hij => hab j hj i hi hij.symm⟩
  exact hpair.forall hd hd' hne i ht i ht' rfl

/-- **What a call is told when it looks for its answer.** -/
theorem Inv.answer?_iff (hi : t.Inv) {i : Nat} {f : Forwarding} (hf : t.forwards[i]? = some f)
    (outcome : DeliveryOutcome) :
    t.relay.answer? i = some outcome ↔ t.Answer i f.event outcome := by
  unfold Relay.answer? Answer
  rw [hi.ledger.answers]
  cases hfind : (t.handled.filterMap fun d => d.1.ticket?.map fun n => (n, d.2)).find?
      (·.1 == i) with
  | some x =>
      obtain ⟨j, given⟩ := x
      -- an answer is there: it's that of the call's command, and there is no other
      have hj : j = i := by simpa using List.find?_some hfind
      subst hj
      obtain ⟨d, hd, hmap⟩ := List.mem_filterMap.mp (List.mem_of_find?_eq_some hfind)
      obtain ⟨n, hn, heq⟩ := Option.map_eq_some_iff.mp hmap
      cases heq
      have hcommand := hi.handled_ticket hf hd hn
      have hmem : (RelayCommand.forwardSync f.event j, d.2) ∈ t.handled := by
        rw [← hcommand]
        exact hd
      constructor
      · intro h
        cases h
        exact Or.inl hmem
      · rintro (h | ⟨_, _, hnone⟩)
        · have := hi.handled_once hd h hn rfl
          rw [this]
        · exact absurd hn (hnone d hd)
  | none =>
      have hnone : ∀ d ∈ t.handled, d.1.ticket? ≠ some i := by
        intro d hd ht
        rw [List.find?_eq_none] at hfind
        refine hfind (i, d.2) (List.mem_filterMap.mpr ⟨d, hd, ?_⟩) (by simp)
        rw [ht]
        rfl
      dsimp only
      constructor
      · intro h
        split at h
        · rename_i hend
          cases h
          exact Or.inr ⟨rfl, hend, hnone⟩
        · exact absurd h (by simp)
      · rintro (h | ⟨rfl, hend, _⟩)
        · exact absurd rfl (hnone _ h)
        · rw [if_pos hend]

/-! ### All moves -/

/-- Neither the clock nor the registry is looked at. -/
theorem inv_around (hi : t.Inv) (now : Nat) (registry : Registry) :
    Inv { t with now, registry } :=
  ⟨hi.ledger, hi.tickets, hi.named, hi.emitted, hi.patient, hi.pending, hi.returned,
    hi.unstopped, hi.stopping, hi.closed, hi.givers⟩

theorem inv_collect (hi : t.Inv) (i : Nat) : (t.move (.collect i)).Inv := by
  dsimp only [move]
  split
  · exact hi
  · rename_i f hf
    split
    · rename_i outcome hp ha
      refine inv_settle hi hf hi.ledger rfl (List.Sublist.refl _) (fun c hc _ => hc) rfl rfl
        (by simp) ?_
      intro o ho
      cases ho
      exact (hi.answer?_iff hf outcome).mp ha
    · exact hi

theorem inv_cancel (hi : t.Inv) (i : Nat) : (t.move (.cancel i)).Inv := by
  dsimp only [move]
  split
  · exact hi
  · rename_i f hf
    split
    · refine inv_settle hi hf (hi.ledger.withdraw i) rfl List.filter_sublist ?_ rfl rfl (by simp)
        (fun o ho => absurd ho (by simp))
      intro c hc hne
      exact List.mem_filter.mpr ⟨hc, by simpa using hne⟩
    · exact hi

/-- Who told the relay to stop gets its counts when it has ended. -/
theorem inv_await (hi : t.Inv) : (t.move .await).Inv := by
  dsimp only [move]
  split
  · rename_i how hc he
    have hstopped := (hi.ledger.ended how he).1
    subst hstopped
    refine inv_relay hi (hi.ledger.congr rfl rfl rfl rfl rfl rfl rfl rfl) rfl rfl rfl
      (fun hopen => absurd rfl (hopen _)) (Or.inr ⟨by rw [he]; rfl, ?_⟩)
    refine ⟨(t.relay.mirror.map Mirror.copied).getD 0, ?_⟩
    unfold Relay.finalStats
    rw [he]
  · exact hi

/-- **Preserved by every move.** -/
theorem inv_move (hi : t.Inv) (m : Move) : (t.move m).Inv := by
  cases m with
  | emit e => exact inv_emit hi e
  | forward e => exact inv_forward hi e
  | collect i => exact inv_collect hi i
  | cancel i => exact inv_cancel hi i
  | step =>
      dsimp only [move]
      split
      · exact hi
      · rename_i hs
        exact inv_step hi hs
  | join =>
      refine inv_relay hi (hi.ledger.congr rfl rfl rfl rfl rfl rfl rfl rfl) rfl rfl rfl ?_
        (Or.inl rfl)
      intro _
      show 0 < t.relay.givers + 1
      omega
  | leave =>
      dsimp only [move]
      split
      · rename_i hg
        refine inv_relay hi (hi.ledger.congr rfl rfl rfl rfl rfl rfl rfl rfl) rfl rfl rfl ?_
          (Or.inl rfl)
        intro _
        show 0 < t.relay.givers - 1
        omega
      · exact hi
  | stop => exact inv_stop hi
  | await => exact inv_await hi
  | popMirror =>
      dsimp only [move]
      split
      · rename_i e relay hp
        obtain ⟨⟨e', mirror⟩, _, heq⟩ := Option.map_eq_some_iff.mp hp
        cases heq
        exact inv_relay hi (hi.ledger.congr rfl rfl rfl rfl rfl rfl rfl rfl) rfl rfl rfl
          hi.givers (Or.inl rfl)
      · exact hi
  | abandonMirror =>
      exact inv_relay hi (hi.ledger.congr rfl rfl rfl rfl rfl rfl rfl rfl) rfl rfl rfl
        hi.givers (Or.inl rfl)
  | wait ms => exact inv_around hi _ _
  | ask c => exact inv_around hi _ _
  | renew => exact inv_around hi _ _

theorem inv_play (hi : t.Inv) (ms : List Move) : (t.play ms).Inv := by
  induction ms generalizing t with
  | nil => exact hi
  | cons m ms ih => exact ih (inv_move hi m)

/-! ## What follows -/

/-- What was carried out is what was accepted first, ahead of the command to stop. -/
theorem Inv.ahead_eq (hi : t.Inv) :
    ∃ rest, t.ahead = t.handled.map Prod.fst ++ rest
      ∧ (t.relay.ended.isSome = true → rest = [])
      ∧ (t.relay.ended = none → rest = t.relay.commands.takeWhile (· != .stop)) := by
  obtain ⟨rest, hrest⟩ := hi.handled_prefix
  have hevents : ∀ c ∈ t.handled.map Prod.fst, (c != .stop) = true := by
    intro c hc
    obtain ⟨d, hd, rfl⟩ := List.mem_map.mp hc
    obtain ⟨e, he, _⟩ := hi.ledger.outcomes d hd
    rw [bne_iff_ne]
    intro hstop
    rw [hstop] at he
    exact absurd he (by simp [RelayCommand.event?])
  refine ⟨rest.takeWhile (· != .stop), ?_, ?_, ?_⟩
  · unfold ahead
    rw [← hrest, List.takeWhile_append_of_pos hevents]
  · intro hend
    obtain ⟨how, hhow⟩ := Option.isSome_iff_exists.mp hend
    obtain ⟨_, more, hmore⟩ := hi.ledger.ended how hhow
    rw [← hrest, List.append_assoc] at hmore
    rw [← List.append_cancel_left hmore]
    rfl
  · intro hend
    have hflow := hi.ledger.flow hend
    rw [← hrest] at hflow
    rw [List.append_cancel_left hflow]

/-- **What a relay gives to all who use it.** -/
structure Orderly (t : Dispatch) : Prop where
  /-- Events that were accepted ahead of the command to stop are handled in the order of
  acceptance, each once, -/
  order : t.handled.map Prod.fst <+: t.ahead
  /-- and all of them by the end of the relay, which is that command. -/
  complete : t.relay.ended.isSome = true →
    t.relay.ended = some .stopped ∧ t.handled.map Prod.fst = t.ahead
  /-- The relay suppresses what is not to be shown, and no more. -/
  outcomes : ∀ d ∈ t.handled, ∃ e, d.1.event? = some e
    ∧ (d.2 = .suppressed ↔ t.relay.filter.admits e = false)
  /-- Only the relay's steps handle anything. A step handles nothing and leaves the registry
  alone, or it handles the next command: it suppresses the event, or has the entry decide. -/
  decision : ∀ m : Move, (t.move m).handled = t.handled
      ∧ (m = .step → (t.move m).registry = t.registry)
    ∨ ∃ c e outcome, m = .step ∧ t.ahead[t.handled.length]? = some c ∧ c.event? = some e
      ∧ (t.move m).handled = t.handled ++ [(c, outcome)]
      ∧ (t.relay.filter.admits e = false ∧ outcome = .suppressed
          ∧ (t.move m).registry = t.registry
        ∨ t.relay.filter.admits e = true
          ∧ t.registry.deliver? t.relay.handle e t.now t.relay.deadline
            = some (outcome, (t.move m).registry))
  /-- Of the events that were handed over the accepted ones joined the queue, in their order; one
  that was refused did not. -/
  emitted : t.accepted.filterMap RelayCommand.emitted? = (t.emits.filter Prod.snd).map Prod.fst
  /-- Every other command with an event was given by the call whose ticket it bears, and joined
  the queue once. -/
  named : ∀ e i, .forwardSync e i ∈ t.accepted → ∃ f, t.forwards[i]? = some f ∧ f.event = e
  once : (t.accepted.filterMap RelayCommand.ticket?).Nodup
  /-- A call has returned the outcome of its own event, when that and all that was accepted before
  it were handled; or the relay had ended without handling it. -/
  returned : ∀ (i : Nat) f outcome, t.forwards[i]? = some f → f.state = .returned outcome →
    (∃ k : Nat, t.accepted[k]? = some (.forwardSync f.event i)
        ∧ t.handled[k]? = some (.forwardSync f.event i, outcome))
      ∨ outcome = .closed ∧ t.relay.ended.isSome = true
        ∧ RelayCommand.forwardSync f.event i ∉ t.ahead
  /-- A call that looks for its answer finds it as soon as its event was handled. -/
  answered : ∀ (i : Nat) f outcome, t.forwards[i]? = some f → f.state = .pending →
    (∃ k : Nat, t.accepted[k]? = some (.forwardSync f.event i)
        ∧ t.handled[k]? = some (.forwardSync f.event i, outcome)) →
    (t.move (.collect i)).forwards[i]? = some { f with state := .returned outcome }
  /-- Before it is told to stop the relay does not end. -/
  unended : t.closing = .uncalled → t.relay.ended = none
  /-- A relay that cannot take a step has ended, or has handled all that was given, or its entry
  keeps the next event waiting. -/
  waits : t.relay.step? t.registry t.now = none →
    t.relay.ended.isSome = true
      ∨ t.handled.map Prod.fst = t.given ∧ t.closing = .uncalled
      ∨ ∃ c e entry, t.ahead[t.handled.length]? = some c ∧ c.event? = some e
        ∧ t.relay.filter.admits e = true ∧ t.registry.entry? t.relay.handle = some entry
        ∧ entry.Detains t.now t.relay.deadline
  /-- The counts account for each event that was accepted ahead of the command to stop. -/
  counts : ∀ s, t.closing = .returned s → t.handled.map Prod.fst = t.ahead
    ∧ s.delivered + s.dropped + s.suppressed = t.ahead.length
    ∧ s.suppressed
      = t.ahead.countP (fun c => c.event?.any fun e => !t.relay.filter.admits e)
    ∧ s.delivered = t.handled.countP (fun d => d.2 = .delivered)
  /-- Who told the relay to stop can have them when it has ended. -/
  counted : t.closing = .called → t.relay.ended.isSome = true →
    ∃ s, (t.move .await).closing = .returned s
  /-- After that every event is refused, and nothing is handled or delivered any more. -/
  final : ∀ s, t.closing = .returned s → ∀ ms : List Move,
    (t.play ms).closing = .returned s ∧ (t.play ms).handled = t.handled
      ∧ (t.play ms).accepted = t.accepted
      ∧ (t.play ms).relay.step? (t.play ms).registry (t.play ms).now = none
      ∧ ∀ e, ((t.play ms).relay.emit e).1 = false

/-- The next command that is carried out is the next of those that were accepted. -/
theorem Inv.ahead_next (hi : t.Inv) (he : t.relay.ended = none) {c : RelayCommand}
    (hc : t.relay.commands.head? = some c) {e : Event} (hev : c.event? = some e) :
    t.ahead[t.handled.length]? = some c := by
  obtain ⟨rest, hahead, _, hrest⟩ := hi.ahead_eq
  obtain ⟨more, hmore⟩ := List.head?_eq_some_iff.mp hc
  have hstop : (c != .stop) = true := by
    rw [bne_iff_ne]
    intro hstop
    rw [hstop] at hev
    exact absurd hev (by simp [RelayCommand.event?])
  have htake : (c :: more).takeWhile (· != .stop) = c :: more.takeWhile (· != .stop) :=
    List.takeWhile_cons_of_pos hstop
  rw [hahead, hrest he, hmore, htake, List.getElem?_append_right (by simp)]
  simp

/-- Only the relay's steps carry anything out. -/
theorem handled_move {m : Move} (hm : m ≠ .step) : (t.move m).handled = t.handled := by
  cases m with
  | step => exact absurd rfl hm
  | collect i =>
      dsimp only [move]
      split
      · rfl
      · split <;> rfl
  | cancel i =>
      dsimp only [move]
      split
      · rfl
      · split <;> rfl
  | leave =>
      dsimp only [move]
      split <;> rfl
  | stop =>
      dsimp only [move]
      split <;> rfl
  | await =>
      dsimp only [move]
      split <;> rfl
  | popMirror =>
      dsimp only [move]
      split <;> rfl
  | _ => rfl

theorem Inv.decision (hi : t.Inv) (m : Move) : (t.move m).handled = t.handled
      ∧ (m = .step → (t.move m).registry = t.registry)
    ∨ ∃ c e outcome, m = .step ∧ t.ahead[t.handled.length]? = some c ∧ c.event? = some e
      ∧ (t.move m).handled = t.handled ++ [(c, outcome)]
      ∧ (t.relay.filter.admits e = false ∧ outcome = .suppressed
          ∧ (t.move m).registry = t.registry
        ∨ t.relay.filter.admits e = true
          ∧ t.registry.deliver? t.relay.handle e t.now t.relay.deadline
            = some (outcome, (t.move m).registry)) := by
  by_cases hm : m = .step
  · subst hm
    dsimp only [move]
    cases hs : t.relay.step? t.registry t.now with
    | none => exact Or.inl ⟨rfl, fun _ => rfl⟩
    | some x =>
        obtain ⟨relay, registry⟩ := x
        obtain ⟨he, hstep⟩ := Relay.step?_stepped hs
        dsimp only
        rcases hi.ledger.decision hstep with ⟨hnil, hreg⟩ | ⟨c, e, outcome, hone, hc, hev, hor⟩
        · rw [hnil, List.append_nil]
          exact Or.inl ⟨rfl, fun _ => hreg⟩
        · rw [hone]
          exact Or.inr ⟨c, e, outcome, rfl, hi.ahead_next he hc hev, hev, rfl, hor⟩
  · exact Or.inl ⟨handled_move hm, fun h => absurd h hm⟩

/-- What was carried out has its place among what was accepted. -/
theorem Inv.placed (hi : t.Inv) {d : RelayCommand × DeliveryOutcome} (hd : d ∈ t.handled) :
    ∃ k : Nat, t.accepted[k]? = some d.1 ∧ t.handled[k]? = some d := by
  obtain ⟨k, hk⟩ := List.mem_iff_getElem?.mp hd
  refine ⟨k, ?_, hk⟩
  have hmap : (t.handled.map Prod.fst)[k]? = some d.1 := by
    rw [List.getElem?_map, hk]
    rfl
  obtain ⟨rest, hrest⟩ := hi.handled_prefix
  rw [← hrest, List.getElem?_append_left (List.getElem?_eq_some_iff.mp hmap).1]
  exact hmap

theorem Inv.waits (hi : t.Inv) (hs : t.relay.step? t.registry t.now = none) :
    t.relay.ended.isSome = true
      ∨ t.handled.map Prod.fst = t.given ∧ t.closing = .uncalled
      ∨ ∃ c e entry, t.ahead[t.handled.length]? = some c ∧ c.event? = some e
        ∧ t.relay.filter.admits e = true ∧ t.registry.entry? t.relay.handle = some entry
        ∧ entry.Detains t.now t.relay.deadline := by
  cases he : t.relay.ended with
  | some how => exact Or.inl rfl
  | none =>
      right
      rcases hi.ledger.stuck hs with hend | ⟨hc, hw⟩ | ⟨c, e, entry, hc, hev, hrest⟩
      · rw [he] at hend
        exact absurd hend (by simp)
      · have hgiven : t.handled.map Prod.fst = t.given := by
          unfold given
          rw [hi.ledger.flow he, hc, hw, List.append_nil, List.append_nil]
        refine Or.inl ⟨hgiven, ?_⟩
        cases hclosing : t.closing with
        | uncalled => rfl
        | called =>
            -- the command to stop is among those that were given, but has no event
            have hstop := hi.stopping hclosing he
            rw [← hgiven] at hstop
            obtain ⟨d, hd, hds⟩ := List.mem_map.mp hstop
            obtain ⟨e, hev, _⟩ := hi.ledger.outcomes d hd
            rw [hds] at hev
            exact absurd hev (by simp [RelayCommand.event?])
        | returned s =>
            have hend := (hi.closed s hclosing).1
            rw [he] at hend
            exact absurd hend (by simp)
      · exact Or.inr ⟨c, e, entry, hi.ahead_next he hc hev, hev, hrest⟩

theorem Inv.complete (hi : t.Inv) (he : t.relay.ended.isSome = true) :
    t.relay.ended = some .stopped ∧ t.handled.map Prod.fst = t.ahead := by
  obtain ⟨how, hhow⟩ := Option.isSome_iff_exists.mp he
  obtain ⟨rest, hahead, hnil, _⟩ := hi.ahead_eq
  refine ⟨?_, ?_⟩
  · rw [hhow, (hi.ledger.ended how hhow).1]
  · rw [hahead, hnil he, List.append_nil]

theorem Inv.counts (hi : t.Inv) {s : RelayStats} (hs : t.closing = .returned s) :
    t.handled.map Prod.fst = t.ahead
      ∧ s.delivered + s.dropped + s.suppressed = t.ahead.length
      ∧ s.suppressed
        = t.ahead.countP (fun c => c.event?.any fun e => !t.relay.filter.admits e)
      ∧ s.delivered = t.handled.countP (fun d => d.2 = .delivered) := by
  obtain ⟨hend, mirrored, heq⟩ := hi.closed s hs
  have hall := (hi.complete hend).2
  rw [heq]
  dsimp only
  rw [hi.ledger.stats, ← hall]
  refine ⟨rfl, ?_, ?_, ?_⟩
  · rw [List.length_map]
    exact (RelayStats.total_eq t.handled {}).trans (Nat.zero_add _)
  · rw [RelayStats.suppressed_eq, List.countP_map]
    refine (Nat.zero_add _).trans (List.countP_congr fun d hd => ?_)
    obtain ⟨e, hev, hsup⟩ := hi.ledger.outcomes d hd
    have hany : (d.1.event?.any fun e => !t.relay.filter.admits e)
        = !t.relay.filter.admits e := by
      rw [hev]
      rfl
    show decide (d.2 = .suppressed) = true ↔ (d.1.event?.any _) = true
    rw [hany, decide_eq_true_iff, hsup, Bool.not_eq_true']
  · exact (RelayStats.delivered_eq t.handled {}).trans (Nat.zero_add _)

/-- When the counts were given, nothing is handled or accepted any more. -/
theorem Inv.over_move (hi : t.Inv) {s : RelayStats} (hs : t.closing = .returned s) (m : Move) :
    (t.move m).closing = .returned s ∧ (t.move m).handled = t.handled
      ∧ (t.move m).accepted = t.accepted := by
  have hend := (hi.closed s hs).1
  have hjoined : ∀ c, t.accepted ++ t.relay.joined c = t.accepted := by
    intro c
    obtain ⟨how, hhow⟩ := Option.isSome_iff_exists.mp hend
    unfold Relay.joined
    rw [hhow]
    exact List.append_nil _
  have hstep : t.move .step = t := by
    dsimp only [move]
    unfold Relay.step?
    rw [if_pos hend]
  have hhandled : (t.move m).handled = t.handled := by
    by_cases hm : m = .step
    · rw [hm, hstep]
    · exact handled_move hm
  have hrest : (t.move m).closing = .returned s ∧ (t.move m).accepted = t.accepted := by
    cases m with
    | emit e => exact ⟨hs, hjoined _⟩
    | forward e => exact ⟨hs, hjoined _⟩
    | step =>
        rw [hstep]
        exact ⟨hs, rfl⟩
    | collect i =>
        dsimp only [move]
        split
        · exact ⟨hs, rfl⟩
        · split <;> exact ⟨hs, rfl⟩
    | cancel i =>
        dsimp only [move]
        split
        · exact ⟨hs, rfl⟩
        · split <;> exact ⟨hs, rfl⟩
    | leave =>
        dsimp only [move]
        split <;> exact ⟨hs, rfl⟩
    | stop =>
        dsimp only [move]
        rw [hs]
        exact ⟨hs, rfl⟩
    | await =>
        dsimp only [move]
        rw [hs]
        exact ⟨hs, rfl⟩
    | popMirror =>
        dsimp only [move]
        split <;> exact ⟨hs, rfl⟩
    | _ => exact ⟨hs, rfl⟩
  exact ⟨hrest.1, hhandled, hrest.2⟩

theorem Inv.over_play (hi : t.Inv) {s : RelayStats} (hs : t.closing = .returned s)
    (ms : List Move) :
    (t.play ms).closing = .returned s ∧ (t.play ms).handled = t.handled
      ∧ (t.play ms).accepted = t.accepted := by
  induction ms generalizing t with
  | nil => exact ⟨hs, rfl, rfl⟩
  | cons m ms ih =>
      obtain ⟨hclosing, hhandled, haccepted⟩ := hi.over_move hs m
      obtain ⟨h1, h2, h3⟩ := ih (inv_move hi m) hclosing
      exact ⟨h1, h2.trans hhandled, h3.trans haccepted⟩

theorem Inv.orderly (hi : t.Inv) : t.Orderly := by
  refine ⟨?_, hi.complete, hi.ledger.outcomes, hi.decision, hi.emitted, ?_, ?_, ?_, ?_, ?_,
    hi.waits, fun s hs => hi.counts hs, ?_, ?_⟩
  · obtain ⟨rest, hahead, _⟩ := hi.ahead_eq
    rw [hahead]
    exact List.prefix_append _ _
  · exact fun e i hx => hi.named e i (List.mem_append_left _ hx)
  · exact hi.tickets.sublist ((List.sublist_append_left _ _).filterMap _)
  · intro i f outcome hf hr
    rcases hi.returned i f outcome hf hr with hm | ⟨hclosed, hend, hnone⟩
    · exact Or.inl (hi.placed hm)
    · refine Or.inr ⟨hclosed, hend, ?_⟩
      rw [← (hi.complete hend).2]
      intro hm
      obtain ⟨d, hd, hdc⟩ := List.mem_map.mp hm
      exact hnone d hd (by rw [hdc]; rfl)
  · rintro i f outcome hf hp ⟨k, _, hk⟩
    have hanswer := (hi.answer?_iff hf outcome).mpr (Or.inl (List.mem_of_getElem? hk))
    dsimp only [move]
    rw [hf]
    dsimp only
    rw [hp, hanswer]
    exact List.getElem?_set_self (List.getElem?_eq_some_iff.mp hf).1
  · intro hu
    by_contra hne
    obtain ⟨how, hhow⟩ := Option.ne_none_iff_exists'.mp hne
    have hpre := (hi.ledger.ended how hhow).2
    refine hi.unstopped hu (List.mem_append_left _ (hpre.subset ?_))
    exact List.mem_append_right _ (List.mem_singleton_self _)
  · intro hc he
    obtain ⟨how, hhow⟩ := Option.isSome_iff_exists.mp he
    dsimp only [move]
    rw [hc, hhow]
    exact ⟨_, rfl⟩
  · intro s hs ms
    obtain ⟨hclosing, hhandled, haccepted⟩ := hi.over_play hs ms
    have hend := ((inv_play hi ms).closed s hclosing).1
    refine ⟨hclosing, hhandled, haccepted, ?_, fun e => ?_⟩
    · unfold Relay.step?
      rw [if_pos hend]
    · obtain ⟨how, hhow⟩ := Option.isSome_iff_exists.mp hend
      obtain ⟨mirror, hm⟩ := (t.play ms).relay.emit_split e
      rw [hm, hhow]
      rfl

/-- **A relay passes nothing over, doubles nothing and forgets nothing.** However those who hand
events over, those who wait for answers, those who use the entry and the clock take turns, from
the start of the relay until long after its end. -/
theorem relay_orderly (now : Nat) (registry : Registry) (handle : Handle) (deadline capacity : Nat)
    (filter : ProgressFilter) (mirror : Option Mirror) (ms : List Move) :
    Orderly (play (of now registry handle deadline capacity filter mirror) ms) :=
  (inv_play (inv_of now registry handle deadline capacity filter mirror) ms).orderly

end Dispatch
end Intake
