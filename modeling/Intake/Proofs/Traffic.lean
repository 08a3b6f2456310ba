import Intake.Proofs.Looks

/-!
# Traffic through one entry

Any number of calls send into one entry, each with an event and a deadline of its own. A call
looks at three things one after the other: whether the entry is closed, whether its deadline has
come, and whether it can leave its event. If it cannot, it waits, and looks at all three again. A
call of the reader looks for an event, then whether the entry is closed, where it looks for an
event once more, and then whether its deadline has come. Between any two of these looks there are
turns of others: of other calls, of the reader, of those who close the entry, and of the clock.
`Traffic.move` is one look, or one step of somebody else.

`Traffic.Moved` says once what a move can do. What an entry owes to its outlet (`Entry.Feeds`) is
kept by each of these things, and so is the ledger of the calls whose events were accepted.
-/

namespace Intake

/-- How far a call to send is. -/
inductive SendState where
  | pending
  | returned (outcome : DeliveryOutcome)
  | cancelled
  deriving DecidableEq, Repr

/-- A call to send. -/
structure Send where
  event : Event
  deadline : Nat
  state : SendState := .pending
  next : SendLook := .token
  deriving DecidableEq, Repr

/-- What a call of the reader looks at next. -/
inductive ReadLook where
  /-- Whether an event waits for it. This is where the call waits, and where it can be given up. -/
  | slot
  /-- Whether the entry is closed. -/
  | token
  /-- Whether an event waits for it in the closed entry. -/
  | last
  /-- Whether its deadline has come. -/
  | clock
  deriving DecidableEq, Repr

/-- A call of the reader that has not returned. -/
structure Reading where
  deadline : Nat
  next : ReadLook := .slot
  deriving DecidableEq, Repr

/-- An entry with all who use it. -/
structure Traffic where
  handle : Handle
  now : Nat
  registry : Registry
  outlet : Outlet := {}
  reading : Option Reading := none
  /-- The sink is about to be gone: it closes its entry and then leaves the reader's place. -/
  dropping : Bool := false
  /-- Every call to send that was ever made. -/
  sends : List Send := []
  /-- The calls that returned with their event accepted, in the order in which they did. -/
  accepted : List (Nat × Event) := []

namespace Traffic

/-- What can happen next. -/
inductive Move where
  /-- A call to send is made. -/
  | send (event : Event) (deadline : Nat)
  /-- A call to send takes its next look. -/
  | look (i : Nat)
  /-- A call to send finds that the room is kept for another one, which has waited for longer. -/
  | yield (i : Nat)
  /-- A call to send is given up. -/
  | cancel (i : Nat)
  /-- A sink is attached. -/
  | attach
  /-- The sink is asked for the next event. -/
  | receive (deadline : Nat)
  /-- The call of the sink takes its next look. -/
  | read
  /-- The call of the sink is given up. -/
  | forgo
  /-- The sink is dropped. Its close is one of those below. -/
  | drop
  /-- The sink that was dropped leaves the reader's place. -/
  | leave
  /-- A close takes an id off the list. -/
  | unlist (id : String)
  /-- A close gets to its entry. -/
  | close (h : Handle)
  | wait (ms : Nat)
  /-- Something else is asked of the registry. -/
  | other (c : Registry.Call)
  /-- The registry goes away. -/
  | renew

/-! ## Looks -/

/-- A call to send returns. -/
def settle (t : Traffic) (i : Nat) (s : Send) (outcome : DeliveryOutcome) (registry : Registry) :
    Traffic :=
  { t with
    registry
    sends := t.sends.set i { s with state := .returned outcome, next := .token }
    accepted := t.accepted ++ (Entry.gain s.event outcome).map (i, ·) }

/-- A call to send goes on to its next look. -/
def turn (t : Traffic) (i : Nat) (s : Send) (next : SendLook) : Traffic :=
  { t with sends := t.sends.set i { s with next } }

/-- A look of a call to send that is pending. -/
def look (t : Traffic) (i : Nat) (s : Send) : Traffic :=
  match s.next.look t.registry t.handle s.event t.now s.deadline with
  | .goes next => t.turn i s next
  | .decides outcome registry => t.settle i s outcome registry

/-- All looks of a call to send that is pending, with nothing in between. -/
def poll (t : Traffic) (i : Nat) (s : Send) : Traffic :=
  match t.registry.deliver? t.handle s.event t.now s.deadline with
  | none => t
  | some (outcome, registry) => t.settle i s outcome registry

/-- A call of the sink returns. -/
def answer (t : Traffic) (s : Sink) (a : Option Event) (registry : Registry) : Traffic :=
  { t with
    registry
    reading := none
    outlet := { t.outlet with sink := some (s.told a), answers := t.outlet.answers ++ [a] } }

/-- The call of the sink goes on to its next look. -/
def pursue (t : Traffic) (c : Reading) (next : ReadLook) : Traffic :=
  { t with reading := some { c with next } }

/-- A look of the sink's call. -/
def read (t : Traffic) (s : Sink) (c : Reading) : Traffic :=
  match c.next with
  | .slot =>
    match t.registry.pick? t.handle with
    | some (event, registry) => t.answer s (some event) registry
    | none => t.pursue c .token
  | .token => t.pursue c (if t.registry.isClosed t.handle then .last else .clock)
  | .last => t.answer s (t.registry.last t.handle).1 (t.registry.last t.handle).2
  | .clock =>
    if c.deadline ≤ t.now then t.answer s none t.registry else t.pursue c .slot

/-- All looks of the sink's call, with nothing in between. -/
def listen (t : Traffic) (s : Sink) (deadline : Nat) : Traffic :=
  match s.receive? t.registry t.now deadline with
  | none => t
  | some (a, _, registry) => t.answer s a registry

/-- The traffic after a move. A move that cannot be made changes nothing. -/
def move (t : Traffic) : Move → Traffic
  | .send event deadline => { t with sends := t.sends ++ [{ event, deadline }] }
  | .look i =>
    match t.sends[i]? with
    | some s => if s.state = .pending then t.look i s else t
    | none => t
  | .yield i =>
    match t.sends[i]? with
    | some s => if s.state = .pending ∧ s.next = .slot then t.turn i s .token else t
    | none => t
  | .cancel i =>
    match t.sends[i]? with
    | some s =>
      if s.state = .pending ∧ s.next = .token then
        { t with sends := t.sends.set i { s with state := .cancelled } }
      else t
    | none => t
  | .attach =>
    match t.registry.take? t.handle with
    | some registry =>
      { t with registry, outlet := { t.outlet with sink := some { handle := t.handle } } }
    | none => t
  | .receive deadline =>
    match t.outlet.sink, t.reading with
    | some s, none =>
      if t.dropping then t
      else if s.finished then t.answer s none t.registry
      else { t with reading := some { deadline } }
    | _, _ => t
  | .read =>
    match t.outlet.sink, t.reading with
    | some s, some c => t.read s c
    | _, _ => t
  | .forgo =>
    match t.reading with
    | some c => if c.next = .slot then { t with reading := none } else t
    | none => t
  | .drop =>
    match t.outlet.sink, t.reading with
    | some _, none => { t with dropping := true }
    | _, _ => t
  | .leave =>
    if t.dropping then
      { t with
        dropping := false
        registry := t.registry.leave t.handle
        outlet := { t.outlet with sink := none, dropped := true } }
    else t
  | .unlist id => { t with registry := t.registry.unlist id }
  | .close h => { t with registry := t.registry.cancel h }
  | .wait ms => { t with now := t.now + ms }
  | .other c => if c.spares t.handle then { t with registry := t.registry.call c } else t
  | .renew => { t with registry := t.registry.renew }

/-- The traffic after some moves. -/
def play (t : Traffic) (ms : List Move) : Traffic :=
  ms.foldl move t

/-- The event that waits in the entry's slot. -/
def waiting (t : Traffic) : Option Event :=
  (t.registry.entry? t.handle).bind Entry.slot

/-! ## What a move can do -/

/-- How a pending call to send goes on to its next look. -/
abbrev Turns (t : Traffic) (s : Send) : SendLook → Prop :=
  s.next.Turns t.registry t.handle t.now s.deadline

/-- How a pending call to send returns. -/
abbrev Returns (t : Traffic) (s : Send) : DeliveryOutcome → Registry → Prop :=
  s.next.Returns t.registry t.handle s.event t.now s.deadline

/-- How a call of the sink goes on without an answer. -/
inductive Listens (t : Traffic) : Option Reading → Prop
  | begun {s : Sink} (deadline : Nat) : t.outlet.sink = some s → s.finished = false →
      t.dropping = false → t.reading = none → t.Listens (some { deadline })
  | missed {c : Reading} : t.reading = some c → c.next = .slot →
      t.registry.pick? t.handle = none → t.Listens (some { c with next := .token })
  | looked {c : Reading} {next : ReadLook} : t.reading = some c → c.next = .token →
      next ≠ .slot → t.Listens (some { c with next })
  | waits {c : Reading} : t.reading = some c → c.next = .clock → t.now < c.deadline →
      t.Listens (some { c with next := .slot })
  | forgone {c : Reading} : t.reading = some c → c.next = .slot → t.Listens none

/-- How a call of the sink returns. -/
inductive Answers (t : Traffic) (s : Sink) : Option Event → Registry → Prop
  | done : t.reading = none → s.finished = true → t.Answers s none t.registry
  | picked {c : Reading} {event : Event} {registry : Registry} : t.reading = some c →
      c.next = .slot → t.registry.pick? t.handle = some (event, registry) →
      t.Answers s (some event) registry
  | last {c : Reading} : t.reading = some c → c.next = .last →
      t.Answers s (t.registry.last t.handle).1 (t.registry.last t.handle).2
  | late {c : Reading} : t.reading = some c → c.next = .clock → c.deadline ≤ t.now →
      t.Answers s none t.registry

/-- What is done to the registry by those who have nothing to do with the entry's slot. -/
inductive Around (h : Handle) (r : Registry) : Registry → Prop
  | unlisted (id : String) : Around h r (r.unlist id)
  | closed (k : Handle) : Around h r (r.cancel k)
  | asked {c : Registry.Call} : c.spares h = true → Around h r (r.call c)
  | renewed : Around h r r.renew

/-- **The things that a move can do.** -/
inductive Moved (t : Traffic) : Traffic → Prop
  | same : t.Moved t
  | sent (event : Event) (deadline : Nat) :
      t.Moved { t with sends := t.sends ++ [{ event, deadline }] }
  | turned {i : Nat} {s : Send} {next : SendLook} : t.sends[i]? = some s → s.state = .pending →
      t.Turns s next → t.Moved (t.turn i s next)
  | returned {i : Nat} {s : Send} {outcome : DeliveryOutcome} {registry : Registry} :
      t.sends[i]? = some s → s.state = .pending → t.Returns s outcome registry →
      t.Moved (t.settle i s outcome registry)
  | cancelled {i : Nat} {s : Send} : t.sends[i]? = some s → s.state = .pending →
      t.Moved { t with sends := t.sends.set i { s with state := .cancelled } }
  | attached {registry : Registry} : t.registry.take? t.handle = some registry →
      t.Moved { t with registry, outlet := { t.outlet with sink := some { handle := t.handle } } }
  | listened {reading : Option Reading} : t.Listens reading → t.Moved { t with reading }
  | answered {s : Sink} {a : Option Event} {registry : Registry} : t.outlet.sink = some s →
      t.Answers s a registry → t.Moved (t.answer s a registry)
  | dropped : t.reading = none → t.Moved { t with dropping := true }
  | left : t.dropping = true → t.Moved { t with
      dropping := false
      registry := t.registry.leave t.handle
      outlet := { t.outlet with sink := none, dropped := true } }
  | around {registry : Registry} : Around t.handle t.registry registry →
      t.Moved { t with registry }
  | waited (ms : Nat) : t.Moved { t with now := t.now + ms }

variable {t t' : Traffic}

theorem look_moved {i : Nat} {s : Send} (hs : t.sends[i]? = some s) (hp : s.state = .pending) :
    t.Moved (t.look i s) := by
  unfold look
  cases hl : s.next.look t.registry t.handle s.event t.now s.deadline with
  | goes next => exact .turned hs hp (SendLook.turns_of_look hl)
  | decides outcome registry => exact .returned hs hp (SendLook.returns_of_look hl)

theorem read_moved {s : Sink} {c : Reading} (hs : t.outlet.sink = some s)
    (hc : t.reading = some c) : t.Moved (t.read s c) := by
  unfold read
  cases hnext : c.next with
  | slot =>
      dsimp only
      cases hp : t.registry.pick? t.handle with
      | none => exact .listened (.missed hc hnext hp)
      | some x => exact .answered hs (.picked hc hnext hp)
  | token =>
      refine .listened (.looked hc hnext ?_)
      split <;> simp
  | last => exact .answered hs (.last hc hnext)
  | clock =>
      dsimp only
      by_cases hd : c.deadline ≤ t.now
      · rw [if_pos hd]
        exact .answered hs (.late hc hnext hd)
      · rw [if_neg hd]
        exact .listened (.waits hc hnext (Nat.not_le.mp hd))

/-- **Every move does one of these things.** -/
theorem move_moved (t : Traffic) (m : Move) : t.Moved (t.move m) := by
  cases m with
  | send event deadline => exact .sent event deadline
  | look i =>
      dsimp only [move]
      split
      · rename_i s hs
        split
        · rename_i hp
          exact look_moved hs hp
        · exact .same
      · exact .same
  | yield i =>
      dsimp only [move]
      split
      · rename_i s hs
        split
        · rename_i hp
          exact .turned hs hp.1 (.waits hp.2)
        · exact .same
      · exact .same
  | cancel i =>
      dsimp only [move]
      split
      · rename_i s hs
        split
        · rename_i hp
          exact .cancelled hs hp.1
        · exact .same
      · exact .same
  | attach =>
      dsimp only [move]
      split
      · rename_i ht
        exact .attached ht
      · exact .same
  | receive deadline =>
      dsimp only [move]
      split
      · rename_i s hs hnone
        split
        · exact .same
        · rename_i hdrop
          split
          · rename_i hfin
            exact .answered hs (.done hnone hfin)
          · rename_i hfin
            exact .listened (.begun deadline hs (by simpa using hfin) (by simpa using hdrop) hnone)
      · exact .same
  | read =>
      dsimp only [move]
      split
      · rename_i s c hs hc
        exact read_moved hs hc
      · exact .same
  | forgo =>
      dsimp only [move]
      split
      · rename_i c hc
        split
        · rename_i hnext
          exact .listened (.forgone hc hnext)
        · exact .same
      · exact .same
  | drop =>
      dsimp only [move]
      split
      · rename_i s hs hnone
        exact .dropped hnone
      · exact .same
  | leave =>
      dsimp only [move]
      split
      · rename_i hdrop
        exact .left hdrop
      · exact .same
  | unlist id => exact .around (.unlisted id)
  | close h => exact .around (.closed h)
  | wait ms => exact .waited ms
  | other c =>
      dsimp only [move]
      split
      · rename_i hc
        exact .around (.asked hc)
      · exact .same
  | renew => exact .around .renewed

/-! ## The invariant -/

/-- **The invariant of the traffic.** -/
structure Inv (t : Traffic) : Prop where
  feeds : t.registry.Feeds t.handle (t.accepted.map Prod.snd) t.outlet
  /-- No call has its event accepted twice. -/
  once : (t.accepted.map Prod.fst).Nodup
  /-- The calls whose events were accepted are those that said so. -/
  ledger : ∀ i event, (i, event) ∈ t.accepted
    ↔ ∃ s, t.sends[i]? = some s ∧ s.event = event ∧ s.state = .returned .delivered
  /-- The sink is called only while it is there and its stream is not over. -/
  reading : ∀ c, t.reading = some c →
    t.dropping = false ∧ ∃ s, t.outlet.sink = some s ∧ s.finished = false

theorem ledger_send (hi : t.Inv) (new : Send) (hnew : new.state = .pending) :
    ∀ i event, (i, event) ∈ t.accepted ↔ ∃ s, (t.sends ++ [new])[i]? = some s ∧ s.event = event
      ∧ s.state = .returned .delivered := by
  intro i event
  refine (hi.ledger i event).trans ?_
  constructor
  · rintro ⟨s, hs, h⟩
    refine ⟨s, ?_, h⟩
    rw [List.getElem?_append_left (List.getElem?_eq_some_iff.mp hs).1]
    exact hs
  · rintro ⟨s, hs, h1, h2⟩
    rcases getElem?_concat_back hs with hold | ⟨_, rfl⟩
    · exact ⟨s, hold, h1, h2⟩
    · rw [hnew] at h2
      exact absurd h2 (by simp)

/-- Another state of a call that was pending: the ledger, if it says so of this call. -/
theorem ledger_set {i : Nat} {s s' : Send} (more : List Event) (hi : t.Inv)
    (hs : t.sends[i]? = some s) (hp : s.state = .pending)
    (hmore : ∀ event, event ∈ more ↔ s'.event = event ∧ s'.state = .returned .delivered) :
    ∀ j event, (j, event) ∈ t.accepted ++ more.map (i, ·)
      ↔ ∃ s'', (t.sends.set i s')[j]? = some s'' ∧ s''.event = event
        ∧ s''.state = .returned .delivered := by
  intro j event
  have hlt : i < t.sends.length := (List.getElem?_eq_some_iff.mp hs).1
  rw [List.mem_append, hi.ledger]
  by_cases hj : i = j
  · subst hj
    rw [List.getElem?_set_self hlt]
    constructor
    · rintro (⟨s'', hs'', _, hd⟩ | hm)
      · rw [hs] at hs''
        cases hs''
        rw [hp] at hd
        exact absurd hd (by simp)
      · -- what is added to the ledger is of this call
        obtain ⟨x, hx, heq⟩ := List.mem_map.mp hm
        cases heq
        exact ⟨_, rfl, (hmore event).mp hx⟩
    · rintro ⟨s'', hs'', h1, h2⟩
      cases hs''
      exact Or.inr (List.mem_map.mpr ⟨event, (hmore event).mpr ⟨h1, h2⟩, rfl⟩)
  · rw [List.getElem?_set_ne hj]
    constructor
    · rintro (hold | hm)
      · exact hold
      · obtain ⟨x, _, heq⟩ := List.mem_map.mp hm
        cases heq
        exact absurd rfl hj
    · exact Or.inl

/-- A call that goes on without an outcome is not in the ledger. -/
theorem ledger_keep {i : Nat} {s s' : Send} (hi : t.Inv) (hs : t.sends[i]? = some s)
    (hp : s.state = .pending) (hp' : s'.state ≠ .returned .delivered) :
    ∀ j event, (j, event) ∈ t.accepted ↔ ∃ s'', (t.sends.set i s')[j]? = some s''
      ∧ s''.event = event ∧ s''.state = .returned .delivered := by
  have hnone : ∀ event, event ∈ ([] : List Event)
      ↔ s'.event = event ∧ s'.state = .returned .delivered := fun event => by simp [hp']
  have hl := ledger_set [] hi hs hp hnone
  rw [List.map_nil, List.append_nil] at hl
  exact hl

/-- What an outcome adds to what was accepted. -/
theorem Returns.feeds {s : Send} {outcome : DeliveryOutcome} {registry : Registry}
    (hr : t.Returns s outcome registry) (hi : t.Inv) :
    registry.Feeds t.handle (t.accepted.map Prod.snd ++ Entry.gain s.event outcome) t.outlet := by
  cases hr with
  | closed _ _ => exact (List.append_nil (t.accepted.map Prod.snd)).symm ▸ hi.feeds
  | late _ _ => exact (List.append_nil (t.accepted.map Prod.snd)).symm ▸ hi.feeds
  | offered _ ho => exact Registry.feeds_offer hi.feeds ho

theorem inv_returned (hi : t.Inv) {i : Nat} {s : Send} {outcome : DeliveryOutcome}
    {registry : Registry} (hs : t.sends[i]? = some s) (hp : s.state = .pending)
    (hr : t.Returns s outcome registry) : (t.settle i s outcome registry).Inv := by
  have hmore : ∀ event, event ∈ Entry.gain s.event outcome
      ↔ s.event = event ∧ SendState.returned outcome = .returned .delivered := by
    intro event
    unfold Entry.gain
    split
    · rename_i ho
      rw [List.mem_singleton, ho]
      exact ⟨fun h => ⟨h.symm, rfl⟩, fun h => h.1.symm⟩
    · rename_i ho
      refine iff_of_false (by simp) ?_
      rintro ⟨_, heq⟩
      exact ho (SendState.returned.inj heq)
  refine ⟨?_, ?_, ledger_set _ hi hs hp hmore, hi.reading⟩
  · show registry.Feeds t.handle ((t.accepted ++ _).map Prod.snd) t.outlet
    rw [List.map_append, List.map_map]
    have hsnd : Prod.snd ∘ (fun event : Event => (i, event)) = id := rfl
    rw [hsnd, List.map_id]
    exact hr.feeds hi
  · show ((t.accepted ++ _).map Prod.fst).Nodup
    rw [List.map_append, List.nodup_append]
    -- the call was pending, so it is not in the ledger yet
    have hnew : ∀ event, (i, event) ∉ t.accepted := by
      intro event hm
      obtain ⟨s', hs', _, hd'⟩ := (hi.ledger i event).mp hm
      rw [hs] at hs'
      cases hs'
      rw [hp] at hd'
      exact absurd hd' (by simp)
    refine ⟨hi.once, ?_, ?_⟩
    · unfold Entry.gain
      split <;> simp
    · intro a ha b hb hab
      obtain ⟨⟨j, event⟩, hx, hxa⟩ := List.mem_map.mp ha
      obtain ⟨y, hy, hyb⟩ := List.mem_map.mp hb
      obtain ⟨event', _, rfl⟩ := List.mem_map.mp hy
      have hj : j = i := hxa.trans (hab.trans hyb.symm)
      subst hj
      exact hnew event hx

end Traffic

/-- What the reader of an entry takes is what waits there. -/
theorem Registry.pick?_eq {r : Registry} {h : Handle} {e : Entry} (he : r.entry? h = some e) :
    r.pick? h = e.slot.map fun event => (event, r.modify h fun _ => { e with slot := none }) := by
  unfold pick? Entry.pick?
  rw [he, Option.bind_some, Option.map_map]
  rfl

theorem Registry.last_eq {r : Registry} {h : Handle} {e : Entry} (he : r.entry? h = some e) :
    r.last h = (e.slot, r.modify h fun _ => { e with slot := none }) := by
  unfold last
  rw [pick?_eq he]
  cases hslot : e.slot with
  | some event => rfl
  | none =>
      have hsame : ({ e with slot := none } : Entry) = e := by
        rw [← hslot]
      rw [hsame, modify_same he]
      rfl

namespace Traffic

variable {t t' : Traffic}

/-- What waits is told, or it is left there when the call ends at its deadline, or when the stream
was over. -/
theorem Answers.entry {s : Sink} {a : Option Event} {registry : Registry} {e : Entry}
    (ha : t.Answers s a registry) (he : t.registry.entry? t.handle = some e) :
    ∃ slot, registry.entry? t.handle = some { e with slot } ∧ a.toList ++ slot.toList = e.slot.toList
      ∧ (a = e.slot ∨ a = none) := by
  cases ha with
  | done _ _ => exact ⟨e.slot, he, rfl, Or.inr rfl⟩
  | late _ _ _ => exact ⟨e.slot, he, rfl, Or.inr rfl⟩
  | picked _ _ hp =>
      rw [Registry.pick?_eq he] at hp
      obtain ⟨event, hslot, heq⟩ := Option.map_eq_some_iff.mp hp
      cases heq
      exact ⟨none, Registry.entry?_modify_self he, by rw [hslot]; rfl, Or.inl hslot.symm⟩
  | last _ _ =>
      rw [Registry.last_eq he]
      exact ⟨none, Registry.entry?_modify_self he, List.append_nil _, Or.inl rfl⟩

theorem inv_answered (hi : t.Inv) {s : Sink} {a : Option Event} {registry : Registry}
    (hs : t.outlet.sink = some s) (ha : t.Answers s a registry) :
    (t.answer s a registry).Inv := by
  obtain ⟨e, he, hf⟩ := hi.feeds
  obtain ⟨slot, he', hslot, _⟩ := ha.entry he
  refine ⟨⟨_, he', Entry.feeds_told hf hs ?_ hslot (s.told_handle a) Sink.told_finished⟩, hi.once,
    hi.ledger, fun c hc => absurd hc (by simp [answer])⟩
  -- a sink whose stream is over is not in a call
  intro hfin
  have hidle : ∀ c, t.reading ≠ some c := by
    intro c hc
    obtain ⟨_, s', hs', hunfin⟩ := hi.reading c hc
    rw [hs] at hs'
    cases hs'
    rw [hfin] at hunfin
    exact absurd hunfin (by simp)
  cases ha with
  | done _ _ => rfl
  | late hc _ _ => rfl
  | picked hc _ _ => exact absurd hc (hidle _)
  | last hc _ => exact absurd hc (hidle _)

/-- **Preserved by every move.** -/
theorem inv_moved (hi : t.Inv) (hm : t.Moved t') : t'.Inv := by
  cases hm with
  | same => exact hi
  | sent event deadline => exact ⟨hi.feeds, hi.once, ledger_send hi _ rfl, hi.reading⟩
  | turned hs hp _ =>
      exact ⟨hi.feeds, hi.once, ledger_keep hi hs hp (by rw [hp]; simp), hi.reading⟩
  | returned hs hp hr => exact inv_returned hi hs hp hr
  | cancelled hs hp => exact ⟨hi.feeds, hi.once, ledger_keep hi hs hp (by simp), hi.reading⟩
  | attached ht =>
      refine ⟨Registry.feeds_take hi.feeds ht, hi.once, hi.ledger, fun c hc => ?_⟩
      exact ⟨(hi.reading c hc).1, _, rfl, rfl⟩
  | listened hl =>
      refine ⟨hi.feeds, hi.once, hi.ledger, fun c' hc' => ?_⟩
      cases hl with
      | begun deadline hs hfin hdrop _ => exact ⟨hdrop, _, hs, hfin⟩
      | missed hc _ _ => exact hi.reading _ hc
      | looked hc _ _ => exact hi.reading _ hc
      | waits hc _ _ => exact hi.reading _ hc
      | forgone _ _ => exact absurd hc' (by simp)
  | answered hs ha => exact inv_answered hi hs ha
  | dropped hnone =>
      refine ⟨hi.feeds, hi.once, hi.ledger, fun c hc => ?_⟩
      rw [hnone] at hc
      exact absurd hc (by simp)
  | left hdrop =>
      refine ⟨Registry.feeds_leave hi.feeds, hi.once, hi.ledger, fun c hc => ?_⟩
      have hnot := (hi.reading c hc).1
      rw [hdrop] at hnot
      exact absurd hnot (by simp)
  | around hr =>
      refine ⟨?_, hi.once, hi.ledger, hi.reading⟩
      cases hr with
      | unlisted id => exact Registry.feeds_unlist hi.feeds id
      | closed k => exact Registry.feeds_cancel hi.feeds k
      | asked hc => exact Registry.feeds_call hi.feeds hc
      | renewed => exact Registry.feeds_renew hi.feeds
  | waited ms => exact ⟨hi.feeds, hi.once, hi.ledger, hi.reading⟩

/-- What holds of a traffic and is preserved by every move holds ever after. -/
theorem play_induction (P : Traffic → Prop)
    (step : ∀ t t', t.Inv → t.Moved t' → P t → P t') (hi : t.Inv) (h : P t) (ms : List Move) :
    P (t.play ms) := by
  induction ms generalizing t with
  | nil => exact h
  | cons m ms ih =>
      have hm := t.move_moved m
      exact ih (inv_moved hi hm) (step _ _ hi hm h)

theorem inv_play (hi : t.Inv) (ms : List Move) : (t.play ms).Inv :=
  play_induction Inv (fun _ _ hi hm _ => inv_moved hi hm) hi hi ms

end Traffic
end Intake
