import Intake.Proofs.Traffic

/-!
# Rounds of looks

A call looks at an entry in rounds. Where nothing comes between the looks of a round, they are
`Entry.deliver?` and `Entry.receive?`: nothing is accepted by an entry that is closed then, or at or
after a deadline, and the end is told only where nothing waits.

On several threads a round overlaps with what others do, and where it overlaps with a close, either
can be the first. What comes after a close is what begins behind it. A round that begins behind a
close, and a look at the clock behind the deadline, accept nothing any more, and an end leaves
nothing behind that was there when its round began. Whatever comes between the looks, no event is
lost or doubled. All this is `traffic_faithful`.
-/

namespace Intake

namespace Traffic

variable {t t' : Traffic}

/-! ## Calls that come too late -/

/-- **An entry that is closed stays so.** -/
theorem closed_moved (hi : t.Inv) (hm : t.Moved t') (hc : t.registry.isClosed t.handle = true) :
    t'.registry.isClosed t'.handle = true := by
  obtain ⟨e, he, _⟩ := hi.feeds
  unfold Registry.isClosed at hc
  rw [he] at hc
  have hentry : ∀ {r : Registry} {e' : Entry}, r.entry? t.handle = some e' → e'.closed = true →
      r.isClosed t.handle = true := by
    intro r e' he' hc'
    unfold Registry.isClosed
    rw [he']
    exact hc'
  cases hm with
  | same => exact hentry he hc
  | sent _ _ => exact hentry he hc
  | turned _ _ _ => exact hentry he hc
  | returned _ _ hr =>
      cases hr with
      | closed _ _ => exact hentry he hc
      | late _ _ => exact hentry he hc
      | offered _ ho =>
          unfold Registry.offer? at ho
          rw [he] at ho
          obtain ⟨⟨_, e'⟩, hoe, heq⟩ := Option.map_eq_some_iff.mp ho
          cases heq
          exact hentry (Registry.entry?_modify_self he) ((Entry.offer?_closed hoe).trans hc)
  | cancelled _ _ => exact hentry he hc
  | attached ht =>
      unfold Registry.take? at ht
      rw [he, Option.bind_some] at ht
      split at ht
      · rename_i e' hte
        cases ht
        refine hentry (Registry.entry?_modify_self he) ?_
        rw [(Entry.take?_some hte).2]
        exact hc
      · exact absurd ht (by simp)
  | listened _ => exact hentry he hc
  | answered _ ha =>
      obtain ⟨slot, he', _⟩ := ha.entry he
      exact hentry he' hc
  | dropped _ => exact hentry he hc
  | left _ => exact hentry (Registry.entry?_modify_self he) hc
  | around hr =>
      cases hr with
      | unlisted id => exact hentry he hc
      | closed k =>
          rcases Registry.entry?_modify_close (k := k) he with hsame | hclosed
          · exact hentry hsame hc
          · exact hentry hclosed rfl
      | asked hspares =>
          rcases Registry.entry?_call hspares he with hsame | hclosed
          · exact hentry hsame hc
          · exact hentry hclosed rfl
      | renewed => exact hentry (Registry.entry?_renew he) hc
  | waited _ => exact hentry he hc

/-- Holds of a call that comes to a closed entry: it is still to look whether that is closed, or it
is still to be made. -/
def Shut (t : Traffic) (i : Nat) : Prop :=
  t.registry.isClosed t.handle = true ∧ ∀ s, t.sends[i]? = some s →
    s.state ≠ .returned .delivered ∧ (s.state = .pending → s.next = .token)

/-- Holds of a call that is still to look at the clock, which is past its deadline. -/
def Late (t : Traffic) (i : Nat) : Prop :=
  ∃ s, t.sends[i]? = some s ∧ s.deadline ≤ t.now ∧ s.state ≠ .returned .delivered
    ∧ (s.state = .pending → s.next ≠ .slot)

/-- What becomes of one call when another state of a call is put in place. -/
theorem sends_set {i j : Nat} {s s' s'' : Send} (hs : t.sends[j]? = some s)
    (hi : (t.sends.set j s')[i]? = some s'') : i = j ∧ s'' = s' ∨ t.sends[i]? = some s'' := by
  by_cases hij : j = i
  · subst hij
    rw [List.getElem?_set_self (List.getElem?_eq_some_iff.mp hs).1] at hi
    exact Or.inl ⟨rfl, (Option.some.inj hi).symm⟩
  · rw [List.getElem?_set_ne hij] at hi
    exact Or.inr hi

theorem shut_moved {i : Nat} (hi : t.Inv) (hm : t.Moved t') (h : t.Shut i) : t'.Shut i := by
  obtain ⟨hclosed, hsend⟩ := h
  refine ⟨closed_moved hi hm hclosed, ?_⟩
  cases hm with
  | sent event deadline =>
      intro s hs
      rcases getElem?_concat_back hs with hold | ⟨_, rfl⟩
      · exact hsend s hold
      · exact ⟨by simp, fun _ => rfl⟩
  | @turned j s next hs hp ht =>
      intro s' hs'
      rcases sends_set hs hs' with ⟨rfl, rfl⟩ | hold
      · -- the call would have to see the entry open
        have hnext := (hsend s hs).2 hp
        cases ht with
        | opened _ hopen =>
            rw [hclosed] at hopen
            exact absurd hopen (by simp)
        | early hclock _ => exact absurd (hnext.symm.trans hclock) (by simp)
        | waits hslot => exact absurd (hnext.symm.trans hslot) (by simp)
      · exact hsend s' hold
  | @returned j s outcome registry hs hp hr =>
      intro s' hs'
      rcases sends_set hs hs' with ⟨rfl, rfl⟩ | hold
      · have hnext := (hsend s hs).2 hp
        cases hr with
        | closed _ _ => exact ⟨by simp, fun _ => rfl⟩
        | late hclock _ => exact absurd (hnext.symm.trans hclock) (by simp)
        | offered hslot _ => exact absurd (hnext.symm.trans hslot) (by simp)
      · exact hsend s' hold
  | @cancelled j s hs hp =>
      intro s' hs'
      rcases sends_set hs hs' with ⟨rfl, rfl⟩ | hold
      · exact ⟨by simp, fun h => absurd h (by simp)⟩
      · exact hsend s' hold
  | _ => exact hsend

theorem late_moved {i : Nat} (hm : t.Moved t') (h : t.Late i) : t'.Late i := by
  obtain ⟨s, hs, hdue, hnot, hnext⟩ := h
  -- another state of this call, or of another one
  have hset : ∀ {j : Nat} {s₀ s' : Send}, t.sends[j]? = some s₀ → s₀.state = .pending →
      s'.deadline = s₀.deadline → s'.state ≠ .returned .delivered →
      (j = i → s'.state = .pending → s'.next ≠ .slot) →
      ∃ s'', (t.sends.set j s')[i]? = some s'' ∧ s''.deadline ≤ t.now
        ∧ s''.state ≠ .returned .delivered ∧ (s''.state = .pending → s''.next ≠ .slot) := by
    intro j s₀ s' hs₀ hp hd hstate hslot
    by_cases hj : j = i
    · subst hj
      rw [hs] at hs₀
      cases hs₀
      exact ⟨s', List.getElem?_set_self (List.getElem?_eq_some_iff.mp hs).1, hd ▸ hdue, hstate,
        hslot rfl⟩
    · exact ⟨s, (List.getElem?_set_ne hj).trans hs, hdue, hnot, hnext⟩
  cases hm with
  | sent event deadline =>
      exact ⟨s, (List.getElem?_append_left (List.getElem?_eq_some_iff.mp hs).1).trans hs, hdue, hnot,
        hnext⟩
  | @turned j s₀ next hs₀ hp ht =>
      refine hset hs₀ hp rfl (by simp [hp]) ?_
      rintro rfl _ hslot
      rw [hs] at hs₀
      cases hs₀
      -- the call would have to see that its deadline is still to come
      cases ht with
      | opened _ _ => exact absurd hslot (by simp)
      | early _ hnow => omega
      | waits _ => exact absurd hslot (by simp)
  | @returned j s₀ outcome registry hs₀ hp hr =>
      have hout : j = i → outcome ≠ .delivered := by
        rintro rfl
        rw [hs] at hs₀
        cases hs₀
        cases hr with
        | closed _ _ => simp
        | late _ _ => simp
        | offered hslot _ => exact absurd hslot (hnext hp)
      by_cases hj : j = i
      · exact hset hs₀ hp rfl (by simpa using hout hj) (fun _ _ => by simp)
      · exact ⟨s, (List.getElem?_set_ne hj).trans hs, hdue, hnot, hnext⟩
  | @cancelled j s₀ hs₀ hp => exact hset hs₀ hp rfl (by simp) (fun _ h => absurd h (by simp))
  | waited ms => exact ⟨s, hs, Nat.le_trans hdue (Nat.le_add_right _ _), hnot, hnext⟩
  | _ => exact ⟨s, hs, hdue, hnot, hnext⟩

/-! ## What is told at the end -/

/-- Holds of a stream that has not ended, or has ended with the session's last event. -/
def Unbroken (o : Outlet) : Prop :=
  none ∈ o.answers → ∃ e, some e ∈ o.answers ∧ e.state.isTerminal = true

/-- What was accepted at some time was received, or the stream goes on and the sink's call, if
there is one, is still to look for an event. -/
def Catches (accepted : List Event) (t : Traffic) : Prop :=
  accepted <+: t.accepted.map Prod.snd ∧ (accepted <+: t.outlet.received
    ∨ Unbroken t.outlet ∧ ∀ c, t.reading = some c → c.next = .slot)

/-- Where nothing waits, everything that was accepted was received. -/
theorem Inv.received_all (hi : t.Inv) {s : Sink} (hs : t.outlet.sink = some s)
    (hp : t.registry.pick? t.handle = none) :
    t.outlet.received = t.accepted.map Prod.snd := by
  obtain ⟨e, he, hf⟩ := hi.feeds
  rw [Registry.pick?_eq he, Option.map_eq_none_iff] at hp
  have hflow := hf.flow (by rw [(hf.place hs).1]; simp)
  rw [hp, Option.toList_none, List.append_nil] at hflow
  exact hflow

theorem catches_answered {accepted : List Event} (hi : t.Inv) {s : Sink} {a : Option Event}
    {registry : Registry} (hs : t.outlet.sink = some s) (ha : t.Answers s a registry)
    (h : Catches accepted t) : Catches accepted (t.answer s a registry) := by
  obtain ⟨hold, hor⟩ := h
  have hrec : (t.answer s a registry).outlet.received = t.outlet.received ++ a.toList := by
    unfold answer Outlet.received
    dsimp only
    rw [List.filterMap_append]
    cases a <;> rfl
  refine ⟨hold, ?_⟩
  rcases hor with hgot | ⟨hgoes, hslot⟩
  · rw [hrec]
    exact Or.inl (hgot.trans (List.prefix_append _ _))
  · refine Or.inr ⟨?_, fun c hc => absurd hc (by simp [answer])⟩
    intro hnone
    have hmem : ∀ e, some e ∈ t.outlet.answers → e.state.isTerminal = true →
        ∃ e, some e ∈ (t.answer s a registry).outlet.answers ∧ e.state.isTerminal = true :=
      fun e he hterm => ⟨e, List.mem_append_left _ he, hterm⟩
    cases ha with
    | done _ hfin =>
        -- the stream was over, so it ended with the last event
        obtain ⟨e, he, hf⟩ := hi.feeds
        obtain ⟨b, hb, hend⟩ := (hf.place hs).2.2.mp hfin
        cases b with
        | some e => exact hmem e hb hend
        | none =>
            obtain ⟨e, he, hterm⟩ := hgoes hb
            exact hmem e he hterm
    | picked _ _ _ =>
        rcases List.mem_append.mp hnone with hbefore | hnow
        · obtain ⟨e, he, hterm⟩ := hgoes hbefore
          exact hmem e he hterm
        · exact absurd (List.mem_singleton.mp hnow) (by simp)
    | last hc hnext => exact absurd (hnext.symm.trans (hslot _ hc)) (by simp)
    | late hc hnext _ => exact absurd (hnext.symm.trans (hslot _ hc)) (by simp)

theorem catches_moved {accepted : List Event} (hi : t.Inv) (hm : t.Moved t')
    (h : Catches accepted t) : Catches accepted t' := by
  cases hm with
  | returned hs hp hr =>
      refine ⟨h.1.trans ?_, h.2⟩
      show t.accepted.map Prod.snd <+: (t.accepted ++ _).map Prod.snd
      rw [List.map_append]
      exact List.prefix_append _ _
  | listened hl =>
      refine ⟨h.1, h.2.elim Or.inl fun hor => ?_⟩
      cases hl with
      | begun deadline _ _ _ _ =>
          refine Or.inr ⟨hor.1, fun c hc => ?_⟩
          cases hc
          rfl
      | missed hc _ hp =>
          obtain ⟨_, s, hs, _⟩ := hi.reading _ hc
          exact Or.inl (hi.received_all hs hp ▸ h.1)
      | looked hc hnext _ => exact absurd (hnext.symm.trans (hor.2 _ hc)) (by simp)
      | waits hc hnext _ => exact absurd (hnext.symm.trans (hor.2 _ hc)) (by simp)
      | forgone _ _ => exact Or.inr ⟨hor.1, fun c hc => absurd hc (by simp)⟩
  | answered hs ha => exact catches_answered hi hs ha h
  | _ => exact h

/-! ## Looks with nothing in between -/

theorem look_goes {i : Nat} {s : Send} {next : SendLook}
    (h : s.next.look t.registry t.handle s.event t.now s.deadline = .goes next) :
    t.look i s = t.turn i s next := by
  unfold look
  rw [h]

theorem look_decides {i : Nat} {s : Send} {outcome : DeliveryOutcome} {registry : Registry}
    (h : s.next.look t.registry t.handle s.event t.now s.deadline = .decides outcome registry) :
    t.look i s = t.settle i s outcome registry := by
  unfold look
  rw [h]

theorem poll_goes {i : Nat} {s : Send} {e : Entry} {next : SendLook}
    (he : t.registry.entry? t.handle = some e)
    (h : SendLook.round t.registry t.handle s.event t.now s.deadline = .goes next) :
    t.poll i s = t := by
  unfold poll
  rw [Registry.deliver?_looks he, h]
  rfl

theorem poll_decides {i : Nat} {s : Send} {e : Entry} {outcome : DeliveryOutcome}
    {registry : Registry} (he : t.registry.entry? t.handle = some e)
    (h : SendLook.round t.registry t.handle s.event t.now s.deadline = .decides outcome registry) :
    t.poll i s = t.settle i s outcome registry := by
  unfold poll
  rw [Registry.deliver?_looks he, h]
  rfl

/-- A call that has returned does not look again. -/
theorem settle_look {i : Nat} (hi : i < t.sends.length) (s : Send) (outcome : DeliveryOutcome)
    (registry : Registry) :
    (t.settle i s outcome registry).move (.look i) = t.settle i s outcome registry := by
  have hget : (t.settle i s outcome registry).sends[i]?
      = some { s with state := .returned outcome, next := .token } := List.getElem?_set_self hi
  dsimp only [move]
  rw [hget]
  exact if_neg (by simp)

theorem turn_look {i : Nat} (hi : i < t.sends.length) {s : Send} (hp : s.state = .pending)
    (next : SendLook) :
    (t.turn i s next).move (.look i) = (t.turn i s next).look i { s with next } := by
  have hget : (t.turn i s next).sends[i]? = some { s with next } := List.getElem?_set_self hi
  dsimp only [move]
  rw [hget]
  exact if_pos hp

theorem turn_turn (t : Traffic) (i : Nat) (s : Send) (next next' : SendLook) :
    (t.turn i s next).turn i { s with next } next' = t.turn i s next' := by
  unfold turn
  dsimp only
  rw [List.set_set]

theorem turn_settle (t : Traffic) (i : Nat) (s : Send) (next : SendLook)
    (outcome : DeliveryOutcome) (registry : Registry) :
    (t.turn i s next).settle i { s with next } outcome registry = t.settle i s outcome registry := by
  unfold turn settle
  dsimp only
  rw [List.set_set]

/-- **The looks of a call to send are a look at a delivery**, if nothing comes between them. -/
theorem play_looks {i : Nat} {s : Send} (hi : t.Inv) (hs : t.sends[i]? = some s)
    (hp : s.state = .pending) (hnext : s.next = .token) :
    t.play [.look i, .look i, .look i] = t.poll i s := by
  obtain ⟨e, he, _⟩ := hi.feeds
  obtain ⟨hlt, hget⟩ := List.getElem?_eq_some_iff.mp hs
  have hfirst : t.move (.look i) = t.look i s := by
    dsimp only [move]
    rw [hs]
    exact if_pos hp
  show ((t.move (.look i)).move (.look i)).move (.look i) = t.poll i s
  rw [hfirst]
  cases h1 : SendLook.token.look t.registry t.handle s.event t.now s.deadline with
  | decides outcome registry =>
      have hround : SendLook.round t.registry t.handle s.event t.now s.deadline
          = .decides outcome registry := by
        unfold SendLook.round
        rw [h1]
        rfl
      rw [look_decides (hnext ▸ h1), settle_look hlt, settle_look hlt, poll_decides he hround]
  | goes next =>
      have hround : SendLook.round t.registry t.handle s.event t.now s.deadline
          = (next.look t.registry t.handle s.event t.now s.deadline).followed fun next =>
            next.look t.registry t.handle s.event t.now s.deadline := by
        unfold SendLook.round
        rw [h1]
        rfl
      rw [look_goes (hnext ▸ h1), turn_look hlt hp]
      cases h2 : next.look t.registry t.handle s.event t.now s.deadline with
      | decides outcome registry =>
          rw [h2] at hround
          rw [look_decides (t := t.turn i s next) (s := { s with next }) h2, turn_settle,
            settle_look hlt, poll_decides he hround]
      | goes next' =>
          rw [h2] at hround
          rw [look_goes (t := t.turn i s next) (s := { s with next }) h2, turn_turn,
            turn_look hlt hp]
          cases h3 : next'.look t.registry t.handle s.event t.now s.deadline with
          | decides outcome registry =>
              rw [look_decides (t := t.turn i s next') (s := { s with next := next' }) h3,
                turn_settle, poll_decides he (hround.trans h3)]
          | goes next'' =>
              -- the call is back where it was
              have hback : next'' = s.next :=
                ((SendLook.turns_of_look h1).round (SendLook.turns_of_look h2)
                  (SendLook.turns_of_look h3)).trans hnext.symm
              rw [look_goes (t := t.turn i s next') (s := { s with next := next' }) h3, turn_turn,
                hback, poll_goes he (hround.trans h3)]
              unfold turn
              rw [← hget, List.set_getElem_self]

theorem listen_eq {s : Sink} {e : Entry} (he : t.registry.entry? t.handle = some e)
    (hh : s.handle = t.handle) (hfin : s.finished = false) (deadline : Nat) :
    t.listen s deadline = match e.slot with
      | some event =>
        t.answer s (some event) (t.registry.modify t.handle fun _ => { e with slot := none })
      | none => if e.closed || deadline ≤ t.now then t.answer s none t.registry else t := by
  unfold listen Sink.receive? Registry.receive?
  rw [if_neg (by simp [hfin]), hh, he]
  dsimp only
  rw [Entry.receive?_eq]
  cases e.slot with
  | some event => rfl
  | none =>
      dsimp only
      by_cases hend : (e.closed || decide (deadline ≤ t.now)) = true
      · rw [if_pos hend, if_pos hend]
        dsimp only [Option.map_some]
        rw [Registry.modify_same he]
      · rw [if_neg hend, if_neg hend]
        rfl

/-- **The looks of the sink's call are a look at its stream**, if nothing comes between them. -/
theorem play_reads {s : Sink} {c : Reading} (hi : t.Inv) (hs : t.outlet.sink = some s)
    (hc : t.reading = some c) (hnext : c.next = .slot) :
    t.play [.read, .read, .read] = t.listen s c.deadline := by
  obtain ⟨e, he, hf⟩ := hi.feeds
  have hfin : s.finished = false := by
    obtain ⟨_, s', hs', hfin⟩ := hi.reading c hc
    rw [hs] at hs'
    cases hs'
    exact hfin
  have hstay : ∀ a registry, (t.answer s a registry).move .read = t.answer s a registry :=
    fun _ _ => rfl
  have hlook : ∀ next, (t.pursue c next).move .read = (t.pursue c next).read s { c with next } := by
    intro next
    unfold pursue
    dsimp only [move]
    rw [hs]
  have hfirst : t.move .read = t.read s c := by
    dsimp only [move]
    rw [hs, hc]
  have hclosed : t.registry.isClosed t.handle = e.closed := by
    unfold Registry.isClosed
    rw [he]
  show ((t.move .read).move .read).move .read = t.listen s c.deadline
  rw [hfirst, listen_eq he (hf.place hs).2.1 hfin]
  unfold read
  rw [hnext, Registry.pick?_eq he]
  dsimp only
  cases hslot : e.slot with
  | some event =>
      dsimp only [Option.map_some]
      rw [hstay, hstay]
  | none =>
      dsimp only [Option.map_none]
      have hsecond : (t.pursue c .token).move .read
          = t.pursue c (if e.closed then .last else .clock) := by
        rw [hlook, ← hclosed]
        rfl
      rw [hsecond, hlook]
      cases e.closed with
      | true =>
          show t.answer s (t.registry.last t.handle).1 (t.registry.last t.handle).2 = _
          unfold Registry.last
          rw [Registry.pick?_eq he, hslot]
          rfl
      | false =>
          show (if c.deadline ≤ t.now then t.answer s none t.registry else t.pursue c .slot) = _
          have hback : t.pursue c .slot = t := by
            unfold pursue
            rw [← hnext, ← hc]
          rw [hback]
          simp

/-! ## What follows -/

/-- **What all who use an entry can rely on.** -/
structure Faithful (t : Traffic) : Prop where
  /-- While the sink is not dropped, what it has received and then what waits for it is what
  was accepted, in that order. -/
  flow : t.outlet.dropped = false →
    t.outlet.received ++ t.waiting.toList = t.accepted.map Prod.snd
  /-- Nothing else is ever received. -/
  received : t.outlet.received <+: t.accepted.map Prod.snd
  /-- No call has its event accepted twice. -/
  once : (t.accepted.map Prod.fst).Nodup
  /-- The calls whose events were accepted are those that returned with that outcome. -/
  ledger : ∀ i event, (i, event) ∈ t.accepted
    ↔ ∃ s, t.sends[i]? = some s ∧ s.event = event ∧ s.state = .returned .delivered
  /-- A call that returned or was cancelled stays as it is. -/
  final : ∀ (m : Move) (i : Nat) (s : Send), t.sends[i]? = some s → s.state ≠ .pending →
    (t.move m).sends[i]? = some s
  /-- Before a sink is attached nothing is accepted. -/
  unread : t.outlet.sink = none → t.outlet.dropped = false → t.accepted = []
  /-- The looks of a call to send, with nothing in between, are a look at a delivery, -/
  polled : ∀ i s, t.sends[i]? = some s → s.state = .pending → s.next = .token →
    t.play [.look i, .look i, .look i] = t.poll i s
  /-- which accepts the event if there is a sink, the entry is not closed, the deadline lies ahead
  and nothing waits, and at no other time. -/
  admission : ∀ i s, (t.poll i s).accepted = t.accepted
    ∨ (t.outlet.sink ≠ none ∧ t.registry.isClosed t.handle = false ∧ t.now < s.deadline
      ∧ t.waiting = none ∧ (t.poll i s).accepted = t.accepted ++ [(i, s.event)])
  /-- Whatever comes between the looks, a call gets to its offer by seeing the entry open and then
  its deadline ahead, -/
  turns : ∀ (m : Move) (i : Nat) (s s' : Send), t.sends[i]? = some s →
    (t.move m).sends[i]? = some s' → s'.state = .pending → s'.next = s.next ∨ t.Turns s s'.next
  /-- and its event is accepted if there is a sink then and nothing waits. -/
  offered : ∀ m : Move, (t.move m).accepted = t.accepted
    ∨ ∃ i s, t.sends[i]? = some s ∧ s.state = .pending ∧ s.next = .slot ∧ t.outlet.sink ≠ none
      ∧ t.waiting = none ∧ (t.move m).accepted = t.accepted ++ [(i, s.event)]
  /-- So what comes to a closed entry is never accepted, -/
  shut : ∀ i, t.Shut i → ∀ ms s, (t.play ms).sends[i]? = some s → s.state ≠ .returned .delivered
  /-- and what comes to the clock past its deadline is not either. -/
  late : ∀ i, t.Late i → ∀ ms s, (t.play ms).sends[i]? = some s → s.state ≠ .returned .delivered
  /-- The looks of the sink's call, with nothing in between, are a look at its stream, -/
  heard : ∀ s c, t.outlet.sink = some s → t.reading = some c → c.next = .slot →
    t.play [.read, .read, .read] = t.listen s c.deadline
  /-- where the end is told only when nothing waits. -/
  drained : ∀ s deadline s' r', t.outlet.sink = some s → s.finished = false →
    s.receive? t.registry t.now deadline = some (none, s', r') → t.waiting = none
  /-- Whatever comes between the looks, what is told is what waits, or the end: once more, or at
  the deadline of the call. -/
  answered : ∀ m : Move, (t.move m).outlet.answers = t.outlet.answers
    ∨ ∃ a, (t.move m).outlet.answers = t.outlet.answers ++ [a]
      ∧ (a = t.waiting ∧ (t.move m).waiting = none ∨ a = none
        ∧ ((∃ b ∈ t.outlet.answers, Outlet.Ends b)
          ∨ ∃ c, t.reading = some c ∧ c.next = .clock ∧ c.deadline ≤ t.now))
  /-- A stream that ends without the session's last event ends when everything was received that
  had been accepted before the sink's call began to look. -/
  caught : (∀ c, t.reading = some c → c.next = .slot) → none ∉ t.outlet.answers → ∀ ms,
    none ∈ (t.play ms).outlet.answers →
    (∀ e, some e ∈ (t.play ms).outlet.answers → e.state.isTerminal = false) →
    t.accepted.map Prod.snd <+: (t.play ms).outlet.received
  /-- After the end, or the session's last event, there was nothing but the end, -/
  ended : t.outlet.answers.Pairwise fun a b => Outlet.Ends a → b = none
  /-- and will be nothing else, at any time, whatever the entry has become. -/
  finished : ∀ s a, t.outlet.sink = some s → a ∈ t.outlet.answers → Outlet.Ends a →
    ∀ r now deadline, s.receive? r now deadline = some (none, s, r)

/-- A call that is not pending is not touched. -/
theorem settled_moved {i : Nat} {s : Send} (hm : t.Moved t') (hs : t.sends[i]? = some s)
    (hp : s.state ≠ .pending) : t'.sends[i]? = some s := by
  have hset : ∀ {j : Nat} {s₀ : Send} (s' : Send), t.sends[j]? = some s₀ → s₀.state = .pending →
      (t.sends.set j s')[i]? = some s := by
    intro j s₀ s' hs₀ hp₀
    have hj : j ≠ i := by
      rintro rfl
      rw [hs] at hs₀
      cases hs₀
      exact hp hp₀
    exact (List.getElem?_set_ne hj).trans hs
  cases hm with
  | sent event deadline =>
      exact (List.getElem?_append_left (List.getElem?_eq_some_iff.mp hs).1).trans hs
  | turned hs₀ hp₀ _ => exact hset _ hs₀ hp₀
  | returned hs₀ hp₀ _ => exact hset _ hs₀ hp₀
  | cancelled hs₀ hp₀ => exact hset _ hs₀ hp₀
  | _ => exact hs

/-- How a call comes to another look. -/
theorem turns_moved {i : Nat} {s s' : Send} (hm : t.Moved t') (hs : t.sends[i]? = some s)
    (hs' : t'.sends[i]? = some s') (hp : s'.state = .pending) :
    s'.next = s.next ∨ t.Turns s s'.next := by
  have hsame : t.sends[i]? = some s' → s'.next = s.next ∨ t.Turns s s'.next := by
    intro hold
    rw [hs] at hold
    cases hold
    exact Or.inl rfl
  cases hm with
  | sent event deadline =>
      exact hsame ((List.getElem?_append_left (List.getElem?_eq_some_iff.mp hs).1).symm.trans hs')
  | turned hs₀ hp₀ ht =>
      rcases sends_set hs₀ hs' with ⟨rfl, rfl⟩ | hold
      · rw [hs] at hs₀
        cases hs₀
        exact Or.inr ht
      · exact hsame hold
  | returned hs₀ _ _ =>
      rcases sends_set hs₀ hs' with ⟨rfl, rfl⟩ | hold
      · exact absurd hp (by simp)
      · exact hsame hold
  | cancelled hs₀ _ =>
      rcases sends_set hs₀ hs' with ⟨rfl, rfl⟩ | hold
      · exact absurd hp (by simp)
      · exact hsame hold
  | _ => exact hsame hs'

theorem waiting_eq {e : Entry} (he : t.registry.entry? t.handle = some e) : t.waiting = e.slot := by
  unfold waiting
  rw [he]
  rfl

/-- What an offer that accepts its event has found. -/
theorem offer?_accepts (hi : t.Inv) {event : Event} {registry : Registry}
    (ho : t.registry.offer? t.handle event = some (.delivered, registry)) :
    t.outlet.sink ≠ none ∧ t.waiting = none := by
  obtain ⟨e, he, hf⟩ := hi.feeds
  unfold Registry.offer? at ho
  rw [he] at ho
  obtain ⟨⟨_, e'⟩, hoe, heq⟩ := Option.map_eq_some_iff.mp ho
  cases heq
  obtain ⟨hr, hslot, _⟩ := Entry.offer?_delivered hoe
  obtain ⟨sink, hsink, _⟩ := hf.present hr
  exact ⟨by rw [hsink]; simp, (waiting_eq he).trans hslot⟩

theorem offered_moved (hi : t.Inv) (hm : t.Moved t') : t'.accepted = t.accepted
    ∨ ∃ i s, t.sends[i]? = some s ∧ s.state = .pending ∧ s.next = .slot ∧ t.outlet.sink ≠ none
      ∧ t.waiting = none ∧ t'.accepted = t.accepted ++ [(i, s.event)] := by
  cases hm with
  | @returned i s outcome registry hs hp hr =>
      by_cases ho : outcome = .delivered
      · subst ho
        cases hr with
        | offered hnext ho =>
            obtain ⟨hsink, hwait⟩ := offer?_accepts hi ho
            exact Or.inr ⟨i, s, hs, hp, hnext, hsink, hwait, rfl⟩
      · left
        unfold settle Entry.gain
        dsimp only
        rw [if_neg ho, List.map_nil, List.append_nil]
  | _ => exact Or.inl rfl

/-- A look at a delivery, and what it adds to what was accepted. -/
theorem poll_accepted (hi : t.Inv) (i : Nat) (s : Send) : (t.poll i s).accepted = t.accepted
    ∨ (t.outlet.sink ≠ none ∧ t.registry.isClosed t.handle = false ∧ t.now < s.deadline
      ∧ t.waiting = none ∧ (t.poll i s).accepted = t.accepted ++ [(i, s.event)]) := by
  obtain ⟨e, he, hf⟩ := hi.feeds
  unfold poll
  cases hd : t.registry.deliver? t.handle s.event t.now s.deadline with
  | none => exact Or.inl rfl
  | some x =>
      obtain ⟨outcome, registry⟩ := x
      dsimp only [settle]
      unfold Entry.gain
      by_cases ho : outcome = .delivered
      · right
        subst ho
        unfold Registry.deliver? at hd
        rw [he] at hd
        obtain ⟨⟨outcome', e'⟩, hde, heq⟩ := Option.map_eq_some_iff.mp hd
        cases heq
        obtain ⟨hcl, hnow, hr, hslot, _⟩ := Entry.deliver?_delivered hde
        obtain ⟨sink, hsink, _⟩ := hf.present hr
        refine ⟨by rw [hsink]; simp, ?_, hnow, (waiting_eq he).trans hslot, rfl⟩
        unfold Registry.isClosed
        rw [he]
        exact hcl
      · left
        rw [if_neg ho, List.map_nil, List.append_nil]

theorem answered_moved (hi : t.Inv) (hm : t.Moved t') :
    t'.outlet.answers = t.outlet.answers
      ∨ ∃ a, t'.outlet.answers = t.outlet.answers ++ [a]
        ∧ (a = t.waiting ∧ t'.waiting = none ∨ a = none
          ∧ ((∃ b ∈ t.outlet.answers, Outlet.Ends b)
            ∨ ∃ c, t.reading = some c ∧ c.next = .clock ∧ c.deadline ≤ t.now)) := by
  cases hm with
  | @answered s a registry hs ha =>
      obtain ⟨e, he, hf⟩ := hi.feeds
      refine Or.inr ⟨a, rfl, ?_⟩
      cases ha with
      | done _ hfin => exact Or.inr ⟨rfl, Or.inl ((hf.place hs).2.2.mp hfin)⟩
      | late hc hnext hd => exact Or.inr ⟨rfl, Or.inr ⟨_, hc, hnext, hd⟩⟩
      | picked _ _ hp =>
          rw [Registry.pick?_eq he] at hp
          obtain ⟨event, hslot, heq⟩ := Option.map_eq_some_iff.mp hp
          cases heq
          exact Or.inl ⟨by rw [waiting_eq he, hslot],
            waiting_eq (t := t.answer s _ _) (Registry.entry?_modify_self he)⟩
      | last _ _ =>
          rw [Registry.last_eq he]
          exact Or.inl ⟨(waiting_eq he).symm,
            waiting_eq (t := t.answer s _ _) (Registry.entry?_modify_self he)⟩
  | _ => exact Or.inl rfl

theorem Inv.faithful (hi : t.Inv) : t.Faithful := by
  obtain ⟨e, he, hf⟩ := hi.feeds
  have hwait : t.waiting = e.slot := waiting_eq he
  refine {
    flow := ?_
    received := hf.received
    once := hi.once
    ledger := hi.ledger
    final := fun m i s hs hp => settled_moved (t.move_moved m) hs hp
    unread := ?_
    polled := fun i s hs hp hnext => play_looks hi hs hp hnext
    admission := poll_accepted hi
    turns := fun m i s s' hs hs' hp => turns_moved (t.move_moved m) hs hs' hp
    offered := fun m => offered_moved hi (t.move_moved m)
    shut := fun i h ms s hs =>
      ((play_induction (Shut · i) (fun _ _ => shut_moved) hi h ms).2 s hs).1
    late := ?_
    heard := fun s c hs hc hnext => play_reads hi hs hc hnext
    drained := ?_
    answered := fun m => answered_moved hi (t.move_moved m)
    caught := ?_
    ended := hf.ended
    finished := ?_ }
  · intro hd
    rw [hwait]
    refine hf.flow fun hr => ?_
    rw [(hf.gone hr).2] at hd
    exact absurd hd (by simp)
  · intro hnone hd
    -- the reader's place was never taken
    have hr : e.reader = .awaited := by
      cases hr : e.reader with
      | awaited => rfl
      | present =>
          obtain ⟨s, hs, _⟩ := hf.present hr
          rw [hnone] at hs
          exact absurd hs (by simp)
      | gone =>
          rw [(hf.gone hr).2] at hd
          exact absurd hd (by simp)
    have hflow := hf.flow (by rw [hr]; simp)
    rw [hf.awaited hr, hf.quiet (by rw [hr]; simp)] at hflow
    exact List.map_eq_nil_iff.mp hflow.symm
  · intro i h ms s hs
    obtain ⟨s', hs', _, hnot, _⟩ :=
      play_induction (Late · i) (fun _ _ _ hm h => late_moved hm h) hi h ms
    rw [hs] at hs'
    cases hs'
    exact hnot
  · intro s deadline s' r' hs hfin hrec
    obtain ⟨_, ⟨hfin', _⟩ | ⟨_, hlook, _⟩⟩ := Sink.receive?_some hrec
    · rw [hfin] at hfin'
      exact absurd hfin' (by simp)
    · rw [(hf.place hs).2.1] at hlook
      unfold Registry.receive? at hlook
      rw [he] at hlook
      obtain ⟨⟨a, e'⟩, hre, heq⟩ := Option.map_eq_some_iff.mp hlook
      cases heq
      rw [hwait]
      exact (Entry.receive?_some hre).1.symm
  · intro hc hnone ms hend hnoterm
    have h : Catches (t.accepted.map Prod.snd) t :=
      ⟨List.prefix_rfl, Or.inr ⟨fun h => absurd h hnone, hc⟩⟩
    rcases (play_induction _ (fun _ _ => catches_moved) hi h ms).2 with hgot | ⟨hgoes, _⟩
    · exact hgot
    · obtain ⟨e, he, hterm⟩ := hgoes hend
      rw [hnoterm e he] at hterm
      exact absurd hterm (by simp)
  · intro s a hs ha hend r now deadline
    have hfin : s.finished = true := (hf.place hs).2.2.mpr ⟨a, ha, hend⟩
    unfold Sink.receive?
    rw [if_pos hfin]

end Traffic
end Intake
