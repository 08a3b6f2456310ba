import Intake.Event

/-!
# The session registry

The registry holds one entry for each open session. An entry has a slot for one event, a
reader's place that is given away at most once, and a mark that says it is closed.

Every entry that was ever opened stays in the table `entries`, and its place there is the
handle by which the parties of a session refer to it. The list `live` says which entry an
id names at the moment. Entries are numbered by epochs, so that closing through a handle
never touches a newer entry of the same id.
-/

namespace Intake

/-- How far an entry's one reader is. -/
inductive Reader where
  /-- Nobody has taken the place yet. -/
  | awaited
  | present
  /-- The place was taken and left. -/
  | gone
  deriving DecidableEq, Repr

/-- The place of an entry in the registry's table. -/
abbrev Handle := Nat

/-- One entry of the registry. -/
structure Entry where
  session : String
  epoch : Nat
  reader : Reader := .awaited
  closed : Bool := false
  /-- The event that waits for the reader. -/
  slot : Option Event := none
  /-- The registry that opened the entry is gone. -/
  orphaned : Bool := false
  deriving DecidableEq, Repr

/-- What became of an event on its way to the reader. -/
inductive DeliveryOutcome where
  | delivered
  /-- The deadline passed first. -/
  | timedOut
  /-- The entry was closed or the reader gone. -/
  | closed
  /-- The event was not to be shown. -/
  | suppressed
  deriving DecidableEq, Repr

/-- The name of an outcome. -/
def DeliveryOutcome.label : DeliveryOutcome → String
  | delivered => "Delivered"
  | timedOut => "TimedOut"
  | closed => "Closed"
  | suppressed => "Suppressed"

namespace Entry

/-- Holds once a reader has taken its place. -/
def isAttached (e : Entry) : Bool :=
  e.reader != .awaited

/-! A delivery looks at three things one after the other: whether the entry is closed, whether
the deadline has come, and whether the reader can be given the event. A reader looks for an event,
whether the entry is closed, and whether its deadline has come. Others can act between two looks;
`deliver?` and `receive?` are the looks with nothing in between. -/

/-- The last look of a delivery. An event for which a reader has room is in the slot afterwards;
without a reader, or without room, the delivery has to wait. -/
def offer? (e : Entry) (event : Event) : Option (DeliveryOutcome × Entry) :=
  match e.reader with
  | .awaited => none
  | .gone => some (.closed, e)
  | .present => if e.slot.isNone then some (.delivered, { e with slot := some event }) else none

/-- The looks of a delivery: the decision, if there is one, and the entry after it. A closed
entry wins over the deadline, and the deadline over delivery. -/
def deliver? (e : Entry) (event : Event) (now deadline : Nat) :
    Option (DeliveryOutcome × Entry) :=
  if e.closed then some (.closed, e)
  else if deadline ≤ now then some (.timedOut, e)
  else e.offer? event

/-- The reader takes the event that waits for it, if there is one. -/
def pick? (e : Entry) : Option (Event × Entry) :=
  e.slot.map fun event => (event, { e with slot := none })

/-- What the reader of a closed entry gets: what waits for it even so, or the end. -/
def last (e : Entry) : Option Event × Entry :=
  match e.pick? with
  | some (event, e) => (some event, e)
  | none => (none, e)

/-- The looks of a reader: an event, or the end of the stream, or none if it has to wait. A
waiting event wins over the closed entry, and that over the deadline. -/
def receive? (e : Entry) (now deadline : Nat) : Option (Option Event × Entry) :=
  match e.pick? with
  | some (event, e) => some (some event, e)
  | none =>
    if e.closed then some e.last
    else if deadline ≤ now then some (none, e)
    else none

/-- Gives the reader's place away, if it is free. -/
def take? (e : Entry) : Option Entry :=
  match e.reader with
  | .awaited => some { e with reader := .present }
  | _ => none

/-- The reader leaves; what waits for it is lost. -/
def leave (e : Entry) : Entry :=
  { e with reader := .gone, slot := none }

/-- The entry after it has been closed. -/
def close (e : Entry) : Entry :=
  { e with closed := true }

end Entry

/-- The entries of all sessions. -/
structure Registry where
  /-- Every entry ever opened. -/
  entries : List Entry := []
  /-- The open sessions: their ids and entries. -/
  live : List (String × Handle) := []
  nextEpoch : Nat := 0
  deriving DecidableEq, Repr

namespace Registry

/-- The entry of a handle. -/
def entry? (r : Registry) (h : Handle) : Option Entry :=
  r.entries[h]?

/-- Changes the entry of a handle. -/
def modify (r : Registry) (h : Handle) (f : Entry → Entry) : Registry :=
  { r with entries := r.entries.modify h f }

/-- The handle of an open session. -/
def lookup? (r : Registry) (id : String) : Option Handle :=
  (r.live.find? (·.1 == id)).map Prod.snd

/-- Whether a session is open. -/
def contains (r : Registry) (id : String) : Bool :=
  (r.lookup? id).isSome

/-- The number of open sessions. -/
def size (r : Registry) : Nat :=
  r.live.length

/-- Opens a session, unless one with its id is open. -/
def open? (r : Registry) (id : String) : Option (Handle × Registry) :=
  if r.contains id then none
  else
    let h := r.entries.length
    some (h, {
      entries := r.entries ++ [{ session := id, epoch := r.nextEpoch }]
      live := r.live ++ [(id, h)]
      nextEpoch := r.nextEpoch + 1 })

/-! To close a session is two steps between which others can act. The first takes its id off
the list, if it is there; who did that then closes the entry. -/

/-- Takes an id off the list of the open sessions. -/
def unlist (r : Registry) (id : String) : Registry :=
  { r with live := r.live.filter (·.1 != id) }

/-- Closes the entry of a handle. -/
def cancel (r : Registry) (h : Handle) : Registry :=
  r.modify h Entry.close

/-- Removes an open session and closes its entry. -/
def remove (r : Registry) (id : String) (h : Handle) : Registry :=
  (r.unlist id).cancel h

/-- The first step of a close by an id: the entry that is to be closed, if there is one. -/
def beginClose (r : Registry) (id : String) : Option Handle × Registry :=
  match r.lookup? id with
  | some h => (some h, r.unlist id)
  | none => (none, r)

/-- The first step of a close through a handle: whether its entry still was the one that its
id names, which is seen by the epoch, and the entry that is to be closed. Where the registry is
gone that is the handle's own without further ado. -/
def beginCloseEntry (r : Registry) (h : Handle) : Bool × Option Handle × Registry :=
  match r.entry? h with
  | none => (false, none, r)
  | some e =>
    if e.orphaned then (false, some h, r)
    else
      match r.lookup? e.session with
      | none => (false, none, r)
      | some current =>
        if (r.entry? current).map Entry.epoch = some e.epoch then
          (true, some current, r.unlist e.session)
        else (false, none, r)

/-- The second step of a close. -/
def finishClose (r : Registry) : Option Handle → Registry
  | some h => r.cancel h
  | none => r

/-- Closes the session of an id; says whether there was one. -/
def close (r : Registry) (id : String) : Bool × Registry :=
  let (h, r) := r.beginClose id
  (h.isSome, r.finishClose h)

/-- Closes the entry of a handle if it still is the one that its id names; says whether it
was. -/
def closeEntry (r : Registry) (h : Handle) : Bool × Registry :=
  let (listed, k, r) := r.beginCloseEntry h
  (listed, r.finishClose k)

/-- Whether the entry of a handle is closed. -/
def isClosed (r : Registry) (h : Handle) : Bool :=
  match r.entry? h with
  | some e => e.closed
  | none => true

/-- The last look of a delivery into the entry of a handle. -/
def offer? (r : Registry) (h : Handle) (event : Event) : Option (DeliveryOutcome × Registry) :=
  match r.entry? h with
  | none => some (.closed, r)
  | some e => (e.offer? event).map fun (outcome, e) => (outcome, r.modify h fun _ => e)

/-- The looks of a delivery into the entry of a handle. -/
def deliver? (r : Registry) (h : Handle) (event : Event) (now deadline : Nat) :
    Option (DeliveryOutcome × Registry) :=
  match r.entry? h with
  | none => some (.closed, r)
  | some e => (e.deliver? event now deadline).map fun (outcome, e) =>
      (outcome, r.modify h fun _ => e)

/-- The reader of an entry takes the event that waits for it, if there is one. -/
def pick? (r : Registry) (h : Handle) : Option (Event × Registry) :=
  ((r.entry? h).bind Entry.pick?).map fun (event, e) => (event, r.modify h fun _ => e)

/-- What the reader of a closed entry gets. -/
def last (r : Registry) (h : Handle) : Option Event × Registry :=
  match r.pick? h with
  | some (event, r) => (some event, r)
  | none => (none, r)

/-- The looks of the reader of an entry. -/
def receive? (r : Registry) (h : Handle) (now deadline : Nat) :
    Option (Option Event × Registry) :=
  match r.entry? h with
  | none => some (none, r)
  | some e => (e.receive? now deadline).map fun (event, e) => (event, r.modify h fun _ => e)

/-- Gives away the reader's place of an entry, if it is free. -/
def take? (r : Registry) (h : Handle) : Option Registry :=
  match (r.entry? h).bind Entry.take? with
  | some e => some (r.modify h fun _ => e)
  | none => none

/-- The reader of an entry leaves. -/
def leave (r : Registry) (h : Handle) : Registry :=
  r.modify h Entry.leave

/-- A new registry in place of the old one, which is gone: no session is open, epochs begin
again, and the entries that remain can only be closed for their own parties. -/
def renew (r : Registry) : Registry where
  entries := r.entries.map fun e => { e with orphaned := true }
  live := []
  nextEpoch := 0

end Registry
end Intake
