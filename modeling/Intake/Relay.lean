import Intake.Registry

/-!
# The relay

A relay stands between the parties of a session, who hand it events, and the session's
entry. It takes its commands in the order in which they came, decides one event after
the other, and counts what became of them. Handing over an event never waits: where there
is no room the event is refused. A mirror gets a copy of each event that may be shown just
before the event is handed over, so it never waits for the entry's reader.
-/

namespace Intake

/-- A bounded store of copies, with the reader of it. -/
structure Mirror where
  capacity : Nat
  buffer : List Event := []
  /-- The reader has not gone away. -/
  readable : Bool := true
  /-- How many copies were taken. -/
  copied : Nat := 0
  deriving DecidableEq, Repr

namespace Mirror

/-- Takes a copy, if there is room and a reader. -/
def copy (m : Mirror) (e : Event) : Mirror :=
  if m.readable && m.buffer.length < m.capacity then
    { m with buffer := m.buffer ++ [e], copied := m.copied + 1 }
  else m

/-- The reader goes away. -/
def abandon (m : Mirror) : Mirror :=
  { m with readable := false, buffer := [] }

/-- The reader takes the first copy, if there is one. -/
def pop? (m : Mirror) : Option (Event × Mirror) :=
  match m.buffer with
  | [] => none
  | e :: buffer => some (e, { m with buffer })

/-- The reader takes everything that is there. -/
def drain (m : Mirror) : List Event × Mirror :=
  (m.buffer, { m with buffer := [] })

end Mirror

/-- What became of the events of a relay. -/
structure RelayStats where
  delivered : Nat := 0
  dropped : Nat := 0
  suppressed : Nat := 0
  /-- How many copies the mirror took. -/
  mirrored : Nat := 0
  deriving DecidableEq, Repr

/-- Counts one more outcome. -/
def RelayStats.count (s : RelayStats) : DeliveryOutcome → RelayStats
  | .delivered => { s with delivered := s.delivered + 1 }
  | .suppressed => { s with suppressed := s.suppressed + 1 }
  | .timedOut | .closed => { s with dropped := s.dropped + 1 }

/-- What a relay is told to do. -/
inductive RelayCommand where
  | forward (event : Event)
  /-- Forward, and answer under a ticket what became of the event. -/
  | forwardSync (event : Event) (ticket : Nat)
  | stop
  deriving DecidableEq, Repr

namespace RelayCommand

/-- The event of a command. -/
def event? : RelayCommand → Option Event
  | forward e => some e
  | forwardSync e _ => some e
  | stop => none

/-- The ticket of a command. -/
def ticket? : RelayCommand → Option Nat
  | forwardSync _ t => some t
  | _ => none

end RelayCommand

/-- How a relay came to its end. -/
inductive RelayEnd where
  /-- It was told to stop. -/
  | stopped
  /-- Nobody was left to tell it anything. -/
  | drained
  /-- It was taken down from outside. -/
  | killed
  deriving DecidableEq, Repr

/-- A relay with its queue. -/
structure Relay where
  handle : Handle
  deadline : Nat
  filter : ProgressFilter
  /-- The room for commands. -/
  capacity : Nat
  mirror : Option Mirror := none
  /-- The commands that were accepted. -/
  queue : List RelayCommand := []
  /-- The commands whose givers wait for room. -/
  waiting : List RelayCommand := []
  /-- The command that is being carried out. -/
  current : Option RelayCommand := none
  /-- The outcomes of events that were forwarded for an answer. -/
  answers : List (Nat × DeliveryOutcome) := []
  stats : RelayStats := {}
  /-- How many parties can give commands. -/
  givers : Nat := 1
  ended : Option RelayEnd := none
  deriving DecidableEq, Repr

namespace Relay

/-- A relay at its start. There is room for one command at least. -/
def start (handle : Handle) (deadline capacity : Nat) (filter : ProgressFilter)
    (mirror : Option Mirror) (givers : Nat) : Relay :=
  { handle, deadline, filter, capacity := max capacity 1, mirror, givers }

/-! ## Giving commands -/

/-- Gives the mirror its copy of an event, if the event may be shown. -/
def reflect (r : Relay) (e : Event) : Relay :=
  if r.filter.admits e then { r with mirror := r.mirror.map (·.copy e) } else r

/-- Holds if a command can be accepted at once. Those who wait come first. -/
def hasRoom (r : Relay) : Bool :=
  r.waiting.isEmpty && r.queue.length < r.capacity

/-- Puts an event into the queue if it can be accepted at once; says whether it was. -/
def enqueue (r : Relay) (e : Event) : Bool × Relay :=
  if r.ended.isNone && r.hasRoom then (true, { r with queue := r.queue ++ [.forward e] })
  else (false, r)

/-- Hands over an event without waiting: the mirror gets its copy, and then the queue the event,
if it accepts it. Others can act between the two. -/
def emit (r : Relay) (e : Event) : Bool × Relay :=
  (r.reflect e).enqueue e

/-- Gives a command, waiting for room if there is none. A relay at its end takes none. -/
def give (r : Relay) (c : RelayCommand) : Relay :=
  if r.ended.isSome then r
  else if r.hasRoom then { r with queue := r.queue ++ [c] }
  else { r with waiting := r.waiting ++ [c] }

/-- Gives an event to forward for an answer. -/
def submit (r : Relay) (e : Event) (ticket : Nat) : Relay :=
  (r.reflect e).give (.forwardSync e ticket)

/-- Takes back a command that still waits for room. -/
def withdraw (r : Relay) (ticket : Nat) : Relay :=
  { r with waiting := r.waiting.filter (·.ticket? != some ticket) }

/-- Takes back the command to stop if it still waits for room. -/
def withdrawStop (r : Relay) : Relay :=
  { r with waiting := r.waiting.filter (· != .stop) }

/-- The answer to an event that was forwarded for one, once it is known. -/
def answer? (r : Relay) (ticket : Nat) : Option DeliveryOutcome :=
  match r.answers.find? (·.1 == ticket) with
  | some (_, outcome) => some outcome
  | none => if r.ended.isSome then some .closed else none

/-- One more party can give commands. -/
def join (r : Relay) : Relay :=
  { r with givers := r.givers + 1 }

/-- One party less can give commands. -/
def release (r : Relay) : Relay :=
  { r with givers := r.givers - 1 }

/-! ## Carrying out commands -/

/-- Takes the next command off the queue; the first who waits gets the room. -/
def pop? (r : Relay) : Option (RelayCommand × Relay) :=
  match r.queue with
  | [] => none
  | c :: queue =>
    match r.waiting with
    | [] => some (c, { r with queue })
    | w :: waiting => some (c, { r with queue := queue ++ [w], waiting })

/-- Ends the relay; what was not carried out is forgotten. -/
def finish (r : Relay) (how : RelayEnd) : Relay :=
  { r with ended := some how, queue := [], waiting := [], current := none }

/-- Records what became of the event of a command. -/
def settle (r : Relay) (c : RelayCommand) (outcome : DeliveryOutcome) : Relay :=
  { r with
    current := none
    stats := r.stats.count outcome
    answers := match c.ticket? with
      | some t => r.answers ++ [(t, outcome)]
      | none => r.answers }

/-- Begins a command. An event that may not be shown is settled at once. -/
def begin (r : Relay) (c : RelayCommand) : Relay :=
  match c.event? with
  | none => r.finish .stopped
  | some e => if r.filter.admits e then { r with current := some c } else r.settle c .suppressed

/-- One step of the relay, if it can take one. -/
def step? (r : Relay) (registry : Registry) (now : Nat) : Option (Relay × Registry) :=
  if r.ended.isSome then none
  else
    match r.current with
    | some c =>
      match c.event? with
      | none => none
      | some e =>
        (registry.deliver? r.handle e now r.deadline).map fun (outcome, registry) =>
          (r.settle c outcome, registry)
    | none =>
      match r.pop? with
      | some (c, r) => some (r.begin c, registry)
      | none => if r.givers = 0 then some (r.finish .drained, registry) else none

/-- The relay is taken down. -/
def kill (r : Relay) : Relay :=
  if r.ended.isSome then r else r.finish .killed

/-- The counts at the end, with the copies of the mirror. A relay that was taken down
reports no outcomes. -/
def finalStats (r : Relay) : RelayStats :=
  let counted := match r.ended with
    | some .killed => ({} : RelayStats)
    | _ => r.stats
  { counted with mirrored := (r.mirror.map Mirror.copied).getD 0 }

/-- The mirror's reader takes the first copy, if there is one. -/
def popMirror? (r : Relay) : Option (Event × Relay) :=
  (r.mirror.bind Mirror.pop?).map fun (e, m) => (e, { r with mirror := some m })

/-- The mirror's reader goes away. -/
def abandonMirror (r : Relay) : Relay :=
  { r with mirror := r.mirror.map Mirror.abandon }

/-- The mirror's reader takes everything that is there. -/
def drainMirror (r : Relay) : List Event × Relay :=
  match r.mirror with
  | some m =>
    let (events, m) := m.drain
    (events, { r with mirror := some m })
  | none => ([], r)

end Relay
end Intake
