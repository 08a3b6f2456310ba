import Intake.Bench.Perform

/-!
# Taking the bench down

All jobs, workers and relays are ended where they stand. Then the runs whose owners took
no part in the turns go on to their ends, and what is still held says what it can.
-/

namespace Intake.Bench

/-- What a relay says when everything has been taken down. -/
structure RelayRemains where
  name : String
  outcome : DeliveryOutcome
  /-- Whether an event was still accepted, if the queue is held. -/
  emitted : Option Bool
  stats : RelayStats
  deriving DecidableEq, Repr

/-- What is left. -/
structure Remains where
  mirrors : List (String × Summary)
  relays : List RelayRemains
  reports : List (String × SessionReport)
  registrySize : Nat

/-- Takes the workers and the relay of a seat down. -/
def killSeat (b : Bench) (seat : Nat) : Bench :=
  match b.runAt? seat with
  | some r =>
    let (hub, r) := r.killRelay.abortWorkers b.hub
    b.putRun seat hub r
  | none => b

/-- Ends all jobs, workers and relays. -/
def kill (b : Bench) : Bench :=
  let b := (List.range b.jobs.length).foldl cancel b
  let b := (List.range b.seats.length).foldl killSeat b
  { b with relays := b.relays.map Relay.kill }

/-- Takes steps of the runs without turns. -/
def resume (b : Bench) : Bench :=
  b.detachedNames.foldl (fun b (_, seat) => driveRun seat enough b) b

/-- The event with which a relay is tried. -/
def trial : Event :=
  Event.ofSession "" .completed

/-- What a relay that has ended still says. -/
def relayRemains (b : Bench) (name : String) (i : Nat) : Option RelayRemains :=
  (b.relays[i]?).map fun r =>
    let r := r.submit trial b.tickets
    let outcome := (r.answer? b.tickets).getD .closed
    let (emitted, r) := match b.queueNames.get? name with
      | some j => if j = i then (some (r.emit trial).1, (r.emit trial).2) else (none, r)
      | none => (none, r)
    { name, outcome, emitted, stats := r.finalStats }

/-- What the mirror of a seat still holds. -/
def mirrorRemains (b : Bench) (seat : Nat) : Summary :=
  .ofEvents (b.drainSeat seat).1

/-- Takes the bench down. -/
def shutdown (b : Bench) : Remains :=
  let b := b.kill.resume
  { mirrors := b.seatNames.map fun (name, seat) => (name, b.mirrorRemains seat)
    relays := b.relayNames.filterMap fun (name, i) => b.relayRemains name i
    reports := b.detachedNames.filterMap fun (name, seat) =>
      (b.runAt? seat).map fun r => (name, r.report)
    registrySize := b.hub.registry.size }

end Intake.Bench
