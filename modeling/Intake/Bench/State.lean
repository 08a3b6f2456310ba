import Intake.Bench.Names
import Intake.Http.Exchange

/-!
# The bench

A bench holds sessions and single parts of sessions, and runs them under a clock that
moves only when it is told to. Work that waits for something is a job. The parties of
the bench are the jobs, the relays and the workers; they take their steps in turn.
-/

namespace Intake.Bench

/-- A session on the bench. -/
inductive Seat where
  | prepared (p : Prepared)
  | running (r : Run)
  /-- It was given up before it ran. -/
  | empty

/-- Work that waits for something. -/
inductive Job where
  /-- Waits until an entry is closed. -/
  | watch (handle : Handle)
  | send (handle : Handle) (event : Event) (deadline : Nat)
  /-- Attaches a sink and then gives it a name. -/
  | attach (name : String) (attachment : Attachment)
  | receive (sink : Nat) (deadline : Nat)
  /-- Receives until the stream ends; the events so far, the last first. -/
  | drain (sink : Nat) (deadline : Nat) (events : List Event)
  | forward (relay ticket : Nat)
  | shutdown (relay : Nat)
  | barrier (barrier : Nat)
  | run (seat : Nat)
  | exchange (exchange : Http.Exchange)
  | sleep (wake : Nat)

/-- What a job came to. -/
inductive Result where
  | closed
  | outcome (outcome : DeliveryOutcome)
  | attached (id : String)
  | refused (error : SinkError)
  | received (event : Option Event)
  | drained (events : List Event)
  | stats (stats : RelayStats)
  | passed (completions : Nat)
  | report (report : SessionReport)
  | response (response : Http.Response)
  | rested
  deriving DecidableEq, Repr

/-- How far a job is. -/
inductive JobState where
  | pending (job : Job)
  | finished (result : Result)
  | cancelled

/-- Who takes steps. -/
inductive Party where
  | job (i : Nat)
  | relay (i : Nat)
  | seatRelay (seat : Nat)
  | worker (seat i : Nat)
  deriving DecidableEq, Repr

/-- Something to receive from. -/
inductive Receiver where
  | entry (handle : Handle)
  | mirror (relay : Nat)
  deriving DecidableEq, Repr

/-- What sessions are opened with. -/
structure Opener where
  table : ExtractorTable
  settings : SessionSettings

end Bench

/-- A bench. -/
structure Bench where
  hub : Hub := {}
  seats : List Bench.Seat := []
  /-- The relays that belong to no session. -/
  relays : List Relay := []
  barriers : List Barrier := []
  /-- The sinks; one that went away leaves its place empty. -/
  sinks : List (Option Sink) := []
  jobs : List Bench.JobState := []
  /-- Who takes steps, in turn. -/
  parties : List Bench.Party := []
  /-- How many events were forwarded for an answer. -/
  tickets : Nat := 0
  /-- The relays whose own handle still counts as a party that can give commands. -/
  ownedRelays : List Nat := []
  handleNames : Bench.Names Handle := []
  receiverNames : Bench.Names Bench.Receiver := []
  sinkNames : Bench.Names Nat := []
  relayNames : Bench.Names Nat := []
  queueNames : Bench.Names Nat := []
  /-- The barriers, and whether somebody already waits at them. -/
  barrierNames : Bench.Names (Nat × Bool) := []
  /-- The tickets, by the barrier they came from. -/
  ticketNames : Bench.Names Nat := []
  jobNames : Bench.Names Nat := []
  openerNames : Bench.Names Bench.Opener := []
  seatNames : Bench.Names Nat := []
  /-- The runs whose owner does not take part in the turns. -/
  detachedNames : Bench.Names Nat := []

namespace Bench

/-- Changes the shared state. -/
def withRegistry (b : Bench) (registry : Registry) : Bench :=
  { b with hub := { b.hub with registry } }

/-- The run on a seat. -/
def runAt? (b : Bench) (seat : Nat) : Option Run :=
  match b.seats[seat]? with
  | some (.running r) => some r
  | _ => none

/-- Puts a run on a seat. -/
def putRun (b : Bench) (seat : Nat) (hub : Hub) (r : Run) : Bench :=
  { b with hub, seats := b.seats.set seat (.running r) }

/-- The jobs that are not done. -/
def pendingJobs (b : Bench) : List Job :=
  b.jobs.filterMap fun
    | .pending j => some j
    | _ => none

/-! ## What is still held -/

/-- Whether a job uses the handle of a relay. -/
def Job.usesRelay (i : Nat) : Job → Bool
  | .forward relay _ => relay == i
  | .shutdown relay => relay == i
  | _ => false

/-- Whether a job uses a sink. -/
def Job.usesSink (i : Nat) : Job → Bool
  | .receive sink _ => sink == i
  | .drain sink _ _ => sink == i
  | _ => false

/-- Whether a job refers to an entry. -/
def Job.usesEntry (h : Handle) : Job → Bool
  | .watch handle => handle == h
  | .send handle _ _ => handle == h
  | .exchange x => x.sink?.any (·.handle == h)
  | _ => false

/-- Whether a seat refers to an entry. -/
def Seat.usesEntry (h : Handle) : Seat → Bool
  | .prepared p => p.handle == h
  | .running r => r.handle == h && (!r.isOver || r.relay.ended.isNone)
  | .empty => false

/-- Whether anybody could still send into an entry. -/
def isHeld (b : Bench) (h : Handle) : Bool :=
  b.hub.registry.live.any (·.2 == h)
    || b.handleNames.any (·.2 == h)
    || b.pendingJobs.any (·.usesEntry h)
    || b.relays.any (fun r => r.handle == h && r.ended.isNone)
    || b.sinks.any (fun s => s.any (·.handle == h))
    || b.seats.any (·.usesEntry h)

/-- Lets go of the handle of a relay that nobody holds any more. -/
def sweepRelay (b : Bench) (i : Nat) : Bench :=
  if b.relayNames.any (·.2 == i) || b.pendingJobs.any (·.usesRelay i) then b
  else { b with
    relays := b.relays.modify i Relay.release
    ownedRelays := b.ownedRelays.filter (· != i) }

/-- Drops a sink that nobody holds any more. -/
def sweepSink (b : Bench) (i : Nat) : Bench :=
  if b.sinkNames.any (·.2 == i) || b.pendingJobs.any (·.usesSink i) then b
  else
    match b.sinks[i]? with
    | some (some s) =>
      { b.withRegistry (s.drop b.hub.registry) with sinks := b.sinks.set i none }
    | _ => b

/-- Drops what nobody holds any more. -/
def sweep (b : Bench) : Bench :=
  let b := b.ownedRelays.foldl sweepRelay b
  (List.range b.sinks.length).foldl sweepSink b

end Bench
end Intake
