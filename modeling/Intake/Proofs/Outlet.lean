import Intake.Proofs.Calls
import Intake.Sink

/-!
# The reader's side of an entry

At most one sink is ever attached to an entry. What its calls have returned, followed by what
waits in the entry's slot, is what was accepted for the entry: nothing is lost between the two
and nothing is told twice. This holds until the sink is dropped. After that the answers are
still a beginning of what was accepted.

`Entry.Feeds` says so of one entry and its outlet. It is kept by a look at a delivery, by a
move of the reader, and by every call that leaves the entry to its own parties.
-/

namespace Intake

/-- The reader's side of an entry. -/
structure Outlet where
  /-- The sink, from the time it is attached until it is dropped. -/
  sink : Option Sink := none
  dropped : Bool := false
  /-- What the sink's calls returned, in order. -/
  answers : List (Option Event) := []

namespace Outlet

/-- What a reader can do. -/
inductive Move where
  | attach
  | receive (deadline : Nat)
  | drop

/-- The outlet of an entry and the registry after a move. A move that cannot be made, or that
has to wait, changes nothing. -/
def move (o : Outlet) (h : Handle) (now : Nat) (r : Registry) : Move → Outlet × Registry
  | .attach =>
    match r.take? h with
    | some r => ({ o with sink := some { handle := h } }, r)
    | none => (o, r)
  | .receive deadline =>
    match o.sink with
    | none => (o, r)
    | some s =>
      match s.receive? r now deadline with
      | some (a, s, r) => ({ o with sink := some s, answers := o.answers ++ [a] }, r)
      | none => (o, r)
  | .drop =>
    match o.sink with
    | some s => ({ o with sink := none, dropped := true }, s.drop r)
    | none => (o, r)

/-- The events that were received. -/
def received (o : Outlet) : List Event :=
  o.answers.filterMap id

/-- Holds of the answers after which a stream is over. -/
def Ends : Option Event → Prop
  | none => True
  | some e => e.state.isTerminal = true

end Outlet

/-- **What an entry and its outlet have to do with each other.** -/
structure Entry.Feeds (h : Handle) (e : Entry) (accepted : List Event) (o : Outlet) : Prop where
  /-- Before anybody has taken the reader's place there is nothing. -/
  awaited : e.reader = .awaited → o = {}
  /-- The place is the sink's, which knows whether its stream is over. -/
  present : e.reader = .present → ∃ s, o.sink = some s ∧ s.handle = h
    ∧ (s.finished = true ↔ ∃ a ∈ o.answers, Outlet.Ends a)
  gone : e.reader = .gone → o.sink = none ∧ o.dropped = true
  /-- Nothing waits for nobody. -/
  quiet : e.reader ≠ .present → e.slot = none
  /-- Nothing that was accepted is lost while the place is not given up. -/
  flow : e.reader ≠ .gone → o.received ++ e.slot.toList = accepted
  received : o.received <+: accepted
  /-- Nothing comes after the end of the stream. -/
  ended : o.answers.Pairwise fun a b => Outlet.Ends a → b = none

namespace Entry

variable {h : Handle} {e e' : Entry} {accepted : List Event} {o : Outlet}

/-- While there is a sink, the reader's place is taken, and the sink's. -/
theorem Feeds.place {s : Sink} (hf : e.Feeds h accepted o) (hs : o.sink = some s) :
    e.reader = .present ∧ s.handle = h
      ∧ (s.finished = true ↔ ∃ a ∈ o.answers, Outlet.Ends a) := by
  cases hr : e.reader with
  | present =>
      obtain ⟨s', hs', hh, hover⟩ := hf.present hr
      rw [hs] at hs'
      cases hs'
      exact ⟨rfl, hh, hover⟩
  | awaited =>
      rw [hf.awaited hr] at hs
      exact absurd hs (by simp)
  | gone =>
      rw [(hf.gone hr).1] at hs
      exact absurd hs (by simp)

theorem feeds_opened (h : Handle) (id : String) (epoch : Nat) :
    Feeds h { session := id, epoch := epoch } [] {} where
  awaited := fun _ => rfl
  present := fun hr => absurd hr (by simp)
  gone := fun hr => absurd hr (by simp)
  quiet := fun _ => rfl
  flow := fun _ => rfl
  received := List.prefix_rfl
  ended := List.Pairwise.nil

/-- Closing an entry concerns neither its slot nor its reader. -/
theorem feeds_close (hf : e.Feeds h accepted o) : e.close.Feeds h accepted o :=
  ⟨hf.awaited, hf.present, hf.gone, hf.quiet, hf.flow, hf.received, hf.ended⟩

theorem feeds_orphaned (hf : e.Feeds h accepted o) :
    Feeds h { e with orphaned := true } accepted o :=
  ⟨hf.awaited, hf.present, hf.gone, hf.quiet, hf.flow, hf.received, hf.ended⟩

/-- An event that is offered is accepted into an empty slot that a reader looks at. -/
theorem offer?_delivered {event : Event} (ho : e.offer? event = some (.delivered, e')) :
    e.reader = .present ∧ e.slot = none ∧ e' = { e with slot := some event } := by
  unfold offer? at ho
  split at ho
  · exact absurd ho (by simp)
  · exact absurd ho (by simp)
  · rename_i hr
    split at ho
    · rename_i hslot
      cases ho
      exact ⟨hr, by simpa using hslot, rfl⟩
    · exact absurd ho (by simp)

/-- Otherwise the reader is gone, and the entry stays as it is. -/
theorem offer?_refused {event : Event} {outcome : DeliveryOutcome}
    (ho : e.offer? event = some (outcome, e')) (hne : outcome ≠ .delivered) :
    outcome = .closed ∧ e.reader = .gone ∧ e' = e := by
  unfold offer? at ho
  split at ho
  · exact absurd ho (by simp)
  · rename_i hr
    cases ho
    exact ⟨rfl, hr, rfl⟩
  · split at ho
    · cases ho
      exact absurd rfl hne
    · exact absurd ho (by simp)

theorem offer?_closed {event : Event} {outcome : DeliveryOutcome}
    (ho : e.offer? event = some (outcome, e')) : e'.closed = e.closed := by
  by_cases hd : outcome = .delivered
  · subst hd
    rw [(offer?_delivered ho).2.2]
  · rw [(offer?_refused ho hd).2.2]

/-- **An event is accepted into an empty slot that a reader looks at, in time and before the
entry is closed.** -/
theorem deliver?_delivered {event : Event} {now deadline : Nat}
    (hd : e.deliver? event now deadline = some (.delivered, e')) :
    e.closed = false ∧ now < deadline ∧ e.reader = .present ∧ e.slot = none
      ∧ e' = { e with slot := some event } := by
  unfold deliver? at hd
  split at hd
  · exact absurd hd (by simp)
  · rename_i hcl
    split at hd
    · exact absurd hd (by simp)
    · rename_i hdl
      exact ⟨by simpa using hcl, by omega, offer?_delivered hd⟩

/-- Any other outcome leaves the entry as it is. -/
theorem deliver?_refused {event : Event} {now deadline : Nat} {outcome : DeliveryOutcome}
    (hd : e.deliver? event now deadline = some (outcome, e')) (ho : outcome ≠ .delivered) :
    e' = e := by
  unfold deliver? at hd
  split at hd
  · cases hd
    rfl
  · split at hd
    · cases hd
      rfl
    · exact (offer?_refused hd ho).2.2

/-- What a delivery adds to what was accepted. -/
def gain (event : Event) (outcome : DeliveryOutcome) : List Event :=
  if outcome = .delivered then [event] else []

theorem feeds_offer {event : Event} {outcome : DeliveryOutcome} (hf : e.Feeds h accepted o)
    (hd : e.offer? event = some (outcome, e')) :
    e'.Feeds h (accepted ++ gain event outcome) o := by
  unfold gain
  by_cases ho : outcome = .delivered
  · subst ho
    obtain ⟨hr, hslot, he'⟩ := offer?_delivered hd
    have hflow : o.received = accepted := by
      have hfl := hf.flow (by rw [hr]; simp)
      rw [hslot, Option.toList_none, List.append_nil] at hfl
      exact hfl
    rw [if_pos rfl, he']
    exact {
      awaited := fun h' => absurd (hr.symm.trans h') (by simp)
      present := hf.present
      gone := fun h' => absurd (hr.symm.trans h') (by simp)
      quiet := fun h' => absurd hr h'
      flow := fun _ => by rw [hflow]; rfl
      received := hf.received.trans (List.prefix_append _ _)
      ended := hf.ended }
  · rw [if_neg ho, List.append_nil, (offer?_refused hd ho).2.2]
    exact hf

theorem feeds_deliver {event : Event} {now deadline : Nat} {outcome : DeliveryOutcome}
    (hf : e.Feeds h accepted o)
    (hd : e.deliver? event now deadline = some (outcome, e')) :
    e'.Feeds h (accepted ++ gain event outcome) o := by
  unfold deliver? at hd
  split at hd
  · cases hd
    exact (List.append_nil accepted).symm ▸ hf
  · split at hd
    · cases hd
      exact (List.append_nil accepted).symm ▸ hf
    · exact feeds_offer hf hd

theorem take?_some (ht : e.take? = some e') :
    e.reader = .awaited ∧ e' = { e with reader := .present } := by
  unfold take? at ht
  split at ht
  · rename_i hr
    cases ht
    exact ⟨hr, rfl⟩
  · exact absurd ht (by simp)

theorem feeds_take (hf : e.Feeds h accepted o) (ht : e.take? = some e') :
    e'.Feeds h accepted { o with sink := some { handle := h } } := by
  obtain ⟨hr, he'⟩ := take?_some ht
  have ho := hf.awaited hr
  have hslot := hf.quiet (by rw [hr]; simp)
  have hflow := hf.flow (by rw [hr]; simp)
  subst ho
  rw [he']
  exact {
    awaited := fun h' => absurd h' (by simp)
    present := fun _ => ⟨_, rfl, rfl, by simp⟩
    gone := fun h' => absurd h' (by simp)
    quiet := fun _ => hslot
    flow := fun _ => hflow
    received := hf.received
    ended := hf.ended }

/-- **A look at the slot takes the event that waits there.** Without one it ends the stream,
if the entry is closed or the deadline has come. -/
theorem receive?_some {now deadline : Nat} {a : Option Event}
    (hr : e.receive? now deadline = some (a, e')) :
    a = e.slot ∧ e' = { e with slot := none } := by
  rw [receive?_eq] at hr
  split at hr
  · rename_i event hslot
    cases hr
    exact ⟨hslot.symm, rfl⟩
  · rename_i hslot
    split at hr
    · cases hr
      refine ⟨hslot.symm, ?_⟩
      rw [← hslot]
    · exact absurd hr (by simp)

/-- The reader leaves, whatever it leaves behind. -/
theorem feeds_leave (hf : e.Feeds h accepted o) :
    e.leave.Feeds h accepted { o with sink := none, dropped := true } where
  awaited := fun h' => absurd h' (by simp [leave])
  present := fun h' => absurd h' (by simp [leave])
  gone := fun _ => ⟨rfl, rfl⟩
  quiet := fun _ => rfl
  flow := fun h' => absurd rfl h'
  received := hf.received
  ended := hf.ended

end Entry

/-! ## A sink's calls -/

theorem Sink.told_finished {s : Sink} {a : Option Event} :
    (s.told a).finished = true ↔ Outlet.Ends a := by
  cases a with
  | none => exact iff_of_true rfl trivial
  | some event => exact Iff.rfl

theorem Sink.told_handle (s : Sink) (a : Option Event) : (s.told a).handle = s.handle := by
  cases a <;> rfl

/-- How a call of a sink that returns comes about. A finished sink returns the end again; any
other takes what a look at its entry gives, and is finished if that is an end. -/
theorem Sink.receive?_some {s s' : Sink} {r r' : Registry} {now deadline : Nat}
    {a : Option Event} (hr : s.receive? r now deadline = some (a, s', r')) :
    s'.handle = s.handle
      ∧ ((s.finished = true ∧ a = none ∧ s' = s ∧ r' = r)
        ∨ (s.finished = false ∧ r.receive? s.handle now deadline = some (a, r')
          ∧ (s'.finished = true ↔ Outlet.Ends a))) := by
  unfold Sink.receive? at hr
  split at hr
  · rename_i hfin
    cases hr
    exact ⟨rfl, Or.inl ⟨hfin, rfl, rfl, rfl⟩⟩
  · rename_i hfin
    obtain ⟨⟨a', r₁⟩, hrec, heq⟩ := Option.map_eq_some_iff.mp hr
    cases heq
    exact ⟨s.told_handle a, Or.inr ⟨by simpa using hfin, hrec, Sink.told_finished⟩⟩

namespace Entry

variable {h : Handle} {e e' : Entry} {accepted : List Event} {o : Outlet}

/-- **What a sink is told goes from the slot to what was received.** After the end of its stream
it is told of the end alone. -/
theorem feeds_told {s s' : Sink} {a slot : Option Event} (hf : e.Feeds h accepted o)
    (hs : o.sink = some s) (hfin : s.finished = true → a = none)
    (hslot : a.toList ++ slot.toList = e.slot.toList) (hs' : s'.handle = s.handle)
    (hend : s'.finished = true ↔ Outlet.Ends a) :
    Feeds h { e with slot } accepted { o with sink := some s', answers := o.answers ++ [a] } := by
  obtain ⟨hpres, hh, hover⟩ := hf.place hs
  -- an answer that ended the stream was followed by ends only
  have hopen : ∀ b ∈ o.answers, Outlet.Ends b → a = none :=
    fun b hb hbe => hfin (hover.mpr ⟨b, hb, hbe⟩)
  have hrec : (o.answers ++ [a]).filterMap id = o.received ++ a.toList := by
    rw [List.filterMap_append]
    cases a <;> rfl
  have hflow : (o.answers ++ [a]).filterMap id ++ slot.toList = accepted := by
    rw [hrec, List.append_assoc, hslot]
    exact hf.flow (by rw [hpres]; simp)
  refine {
    awaited := fun h' => absurd (hpres.symm.trans h') (by simp)
    present := ?_
    gone := fun h' => absurd (hpres.symm.trans h') (by simp)
    quiet := fun h' => absurd hpres h'
    flow := fun _ => hflow
    received := ⟨slot.toList, hflow⟩
    ended := ?_ }
  · intro _
    refine ⟨s', rfl, hs'.trans hh, hend.trans ?_⟩
    constructor
    · intro ha
      exact ⟨a, by simp, ha⟩
    · rintro ⟨b, hb, hbe⟩
      rcases List.mem_append.mp hb with hold | hnew
      · rw [hopen b hold hbe]
        trivial
      · rw [← List.mem_singleton.mp hnew]
        exact hbe
  · rw [List.pairwise_append]
    refine ⟨hf.ended, List.pairwise_singleton _ _, ?_⟩
    intro b hb c hc hbe
    rw [List.mem_singleton.mp hc]
    exact hopen b hb hbe

/-- A sink whose stream is over returns the end, which adds nothing to what was received. -/
theorem feeds_over {s : Sink} (hf : e.Feeds h accepted o) (hs : o.sink = some s)
    (hfin : s.finished = true) :
    e.Feeds h accepted { o with sink := some s, answers := o.answers ++ [none] } := by
  have hslot : (none : Option Event).toList ++ e.slot.toList = e.slot.toList := rfl
  exact feeds_told hf hs (fun _ => rfl) hslot rfl (iff_of_true hfin trivial)

/-- **A look at the slot moves what waits there to what was received.** -/
theorem feeds_receive {s s' : Sink} {now deadline : Nat} {a : Option Event}
    (hf : e.Feeds h accepted o) (hs : o.sink = some s) (hfin : s.finished = false)
    (hs' : s'.handle = s.handle) (hend : s'.finished = true ↔ Outlet.Ends a)
    (hr : e.receive? now deadline = some (a, e')) :
    e'.Feeds h accepted { o with sink := some s', answers := o.answers ++ [a] } := by
  obtain ⟨ha, he'⟩ := receive?_some hr
  have hslot : a.toList ++ (none : Option Event).toList = e.slot.toList := by
    rw [ha, Option.toList_none, List.append_nil]
  rw [he']
  refine feeds_told hf hs (fun h' => ?_) hslot hs' hend
  rw [hfin] at h'
  exact absurd h' (by simp)

end Entry

/-! ## The registry behind an outlet -/

/-- The entry of a handle and an outlet have to do with each other. -/
def Registry.Feeds (r : Registry) (h : Handle) (accepted : List Event) (o : Outlet) : Prop :=
  ∃ e, r.entry? h = some e ∧ e.Feeds h accepted o

namespace Registry

variable {r r' : Registry} {h : Handle} {accepted : List Event} {o : Outlet}

/-- A new entry has had no events and no reader. -/
theorem feeds_open {id : String} (ho : r.open? id = some (h, r')) : r'.Feeds h [] {} := by
  rw [open?_eq] at ho
  split at ho
  · exact absurd ho (by simp)
  · cases ho
    exact ⟨_, entry?_opened_new r id, Entry.feeds_opened _ _ _⟩

/-- **Kept by every call that leaves the entry to its own parties.** -/
theorem feeds_call {c : Call} (hf : r.Feeds h accepted o) (hc : c.spares h = true) :
    (r.call c).Feeds h accepted o := by
  obtain ⟨e, he, hf⟩ := hf
  rcases entry?_call hc he with hsame | hclosed
  · exact ⟨e, hsame, hf⟩
  · exact ⟨e.close, hclosed, Entry.feeds_close hf⟩

theorem entry?_renew {e : Entry} (he : r.entry? h = some e) :
    entry? (Registry.renew r) h = some { e with orphaned := true } := by
  unfold entry? at he
  unfold entry? renew
  rw [List.getElem?_map, he]
  rfl

theorem feeds_renew (hf : r.Feeds h accepted o) : r.renew.Feeds h accepted o := by
  obtain ⟨e, he, hf⟩ := hf
  exact ⟨{ e with orphaned := true }, entry?_renew he, Entry.feeds_orphaned hf⟩

theorem feeds_unlist (hf : r.Feeds h accepted o) (id : String) : (r.unlist id).Feeds h accepted o :=
  hf

theorem feeds_cancel (hf : r.Feeds h accepted o) (k : Handle) :
    (r.cancel k).Feeds h accepted o := by
  obtain ⟨e, he, hf⟩ := hf
  rcases entry?_modify_close (k := k) he with hsame | hclosed
  · exact ⟨e, hsame, hf⟩
  · exact ⟨e.close, hclosed, Entry.feeds_close hf⟩

/-- **Kept by an offer.** -/
theorem feeds_offer {event : Event} {outcome : DeliveryOutcome} (hf : r.Feeds h accepted o)
    (hd : r.offer? h event = some (outcome, r')) :
    r'.Feeds h (accepted ++ Entry.gain event outcome) o := by
  obtain ⟨e, he, hf⟩ := hf
  unfold offer? at hd
  rw [he] at hd
  obtain ⟨⟨outcome', e'⟩, hde, heq⟩ := Option.map_eq_some_iff.mp hd
  cases heq
  exact ⟨e', entry?_modify_self he, Entry.feeds_offer hf hde⟩

/-- **Kept by a look at a delivery.** -/
theorem feeds_deliver {event : Event} {now deadline : Nat} {outcome : DeliveryOutcome}
    (hf : r.Feeds h accepted o)
    (hd : r.deliver? h event now deadline = some (outcome, r')) :
    r'.Feeds h (accepted ++ Entry.gain event outcome) o := by
  obtain ⟨e, he, hf⟩ := hf
  unfold deliver? at hd
  rw [he] at hd
  obtain ⟨⟨outcome', e'⟩, hde, heq⟩ := Option.map_eq_some_iff.mp hd
  cases heq
  exact ⟨e', entry?_modify_self he, Entry.feeds_deliver hf hde⟩

/-- **Kept when the sink is attached,** -/
theorem feeds_take (hf : r.Feeds h accepted o) (ht : r.take? h = some r') :
    r'.Feeds h accepted { o with sink := some { handle := h } } := by
  obtain ⟨e, he, hf⟩ := hf
  unfold take? at ht
  rw [he, Option.bind_some] at ht
  cases hte : e.take? with
  | none =>
      rw [hte] at ht
      exact absurd ht (by simp)
  | some e' =>
      rw [hte] at ht
      cases ht
      exact ⟨e', entry?_modify_self he, Entry.feeds_take hf hte⟩

/-- **and when it leaves.** -/
theorem feeds_leave (hf : r.Feeds h accepted o) :
    (r.leave h).Feeds h accepted { o with sink := none, dropped := true } := by
  obtain ⟨e, he, hf⟩ := hf
  exact ⟨e.leave, entry?_modify_self he, Entry.feeds_leave hf⟩

/-- **Kept by every move of the reader.** -/
theorem feeds_move {now : Nat} {m : Outlet.Move} (hf : r.Feeds h accepted o) :
    Feeds (o.move h now r m).2 h accepted (o.move h now r m).1 := by
  obtain ⟨e, he, hf⟩ := hf
  cases m with
  | attach =>
      dsimp only [Outlet.move]
      cases ht : r.take? h with
      | none => exact ⟨e, he, hf⟩
      | some r' => exact feeds_take ⟨e, he, hf⟩ ht
  | receive deadline =>
      dsimp only [Outlet.move]
      cases hs : o.sink with
      | none => exact ⟨e, he, hf⟩
      | some s =>
          dsimp only
          cases hrec : s.receive? r now deadline with
          | none => exact ⟨e, he, hf⟩
          | some x =>
              obtain ⟨a, s', r'⟩ := x
              obtain ⟨hh, ⟨hfin, ha, hs', hr'⟩ | ⟨hfin, hlook, hend⟩⟩ :=
                Sink.receive?_some hrec
              · subst ha hs' hr'
                exact ⟨e, he, Entry.feeds_over hf hs hfin⟩
              · have hsh : s.handle = h := (hf.place hs).2.1
                rw [hsh] at hlook
                unfold receive? at hlook
                rw [he] at hlook
                obtain ⟨⟨a', e'⟩, hre, heq⟩ := Option.map_eq_some_iff.mp hlook
                cases heq
                exact ⟨e', entry?_modify_self he,
                  Entry.feeds_receive hf hs hfin hh hend hre⟩
  | drop =>
      dsimp only [Outlet.move]
      cases hs : o.sink with
      | none => exact ⟨e, he, hf⟩
      | some s =>
          dsimp only
          have hsh : s.handle = h := (hf.place hs).2.1
          unfold Sink.drop
          rw [hsh]
          refine feeds_leave ?_
          rcases entry?_closeEntry (k := h) he with hsame | hclosed
          · exact ⟨e, hsame, hf⟩
          · exact ⟨e.close, hclosed, Entry.feeds_close hf⟩

end Registry
end Intake
