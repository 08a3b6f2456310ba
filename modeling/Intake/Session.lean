import Intake.Barrier
import Intake.Identifier
import Intake.Relay
import Intake.Settings
import Intake.Worker

/-!
# Upload sessions

A session is prepared from a batch of files, which opens its registry entry, and then
run. Its run announces the session, queues a task for each file, starts a worker for each
task, and waits at a barrier until all workers are done. If the deadline passes before,
it closes the entry and goes on waiting. In the end it has the session's last event
forwarded behind all others, stops the relay and closes the entry.

The run, the relay and each worker take their steps in any order; `Run.act?` says what
one step of one of them does. What they share with other sessions is the `Hub`.
-/

namespace Intake

/-- What all sessions share. -/
structure Hub where
  /-- The time in milliseconds. -/
  now : Nat := 0
  registry : Registry := {}
  spools : Spools := {}
  /-- The gates that are open. -/
  gates : List String := []
  /-- How many ids were handed out. -/
  serial : Nat := 0
  deriving DecidableEq, Repr

/-- Why no session was prepared. -/
inductive SessionError where
  | batch (error : BatchError)
  | alreadyOpen (id : String)
  deriving DecidableEq, Repr

namespace SessionError

/-- The wording for an id that is in use. -/
def alreadyOpenMessage (id : String) : String :=
  "Session already open: " ++ id

/-- The wording. -/
def message : SessionError → String
  | batch e => e.message
  | alreadyOpen id => alreadyOpenMessage id

end SessionError

/-- A session that has its entry but does not run yet. -/
structure Prepared where
  id : String
  handle : Handle
  files : List Submission
  table : ExtractorTable
  settings : SessionSettings
  mirror : Option Mirror := none

namespace Prepared

/-- Checks a batch and opens its session. An id that is missing or blank is replaced by a
new one. The files of a refused batch are removed. -/
def open? (table : ExtractorTable) (settings : SessionSettings) (id : Option String)
    (files : List Submission) (hub : Hub) : Except SessionError Prepared × Hub :=
  let refused := { hub with spools := hub.spools.removeAll (files.map Submission.spool) }
  match settings.validateBatch files.length with
  | .error e => (.error (.batch e), refused)
  | .ok () =>
    let new := Identifier.fresh hub.serial
    let chosen := Identifier.resolve id new
    match hub.registry.open? chosen with
    | none => (.error (.alreadyOpen chosen), { refused with serial := hub.serial + 1 })
    | some (handle, registry) =>
      (.ok { id := chosen, handle, files, table, settings },
        { hub with registry, serial := hub.serial + 1 })

/-- Takes a mirror with room for every event of the session. -/
def takeMirror (p : Prepared) : Prepared :=
  { p with mirror := some { capacity := queueCapacity p.files.length } }

/-- Gives a prepared session up: its files are removed, its entry stays. -/
def discard (p : Prepared) (hub : Hub) : Hub :=
  { hub with spools := hub.spools.removeAll (p.files.map Submission.spool) }

end Prepared

/-- How far a run is. -/
inductive RunPhase where
  | announcing
  | queueing
  | spawning
  /-- At the barrier, before the deadline. -/
  | waiting
  /-- At the barrier, after the deadline. -/
  | overdue
  /-- Taking the workers' reports. -/
  | collecting
  | submitting
  | awaitingOutcome
  | stopping
  | awaitingStop
  | returned
  /-- The run was given up at one of the points at which it waited. -/
  | abandoned
  deriving DecidableEq, Repr

/-- A session in work. -/
structure Run where
  id : String
  handle : Handle
  table : ExtractorTable
  started : Nat
  deadline : Nat
  /-- The files without a task. -/
  files : List Submission
  /-- The tasks without a worker. -/
  queued : List (FileTask × Spool) := []
  workers : List Worker := []
  relay : Relay
  barrier : Barrier := {}
  phase : RunPhase := .announcing
  /-- How many tickets came back to the barrier. -/
  completions : Nat := 0
  deadlineElapsed : Bool := false
  /-- What became of the session's last event. -/
  outcome : DeliveryOutcome := .closed
  /-- When the run returned. -/
  finished : Nat := 0

/-- What is said of a session at the end. -/
structure SessionReport where
  id : String
  /-- In the order of submission. -/
  tasks : List TaskReport
  relay : RelayStats
  completions : Nat
  deadlineElapsed : Bool
  completedDelivery : DeliveryOutcome
  /-- In milliseconds. -/
  elapsed : Nat
  deriving DecidableEq, Repr

namespace SessionReport

/-- The number of files with a text. -/
def succeeded (r : SessionReport) : Nat :=
  r.tasks.countP (·.outcome == some .success)

/-- The number of files without one. -/
def failed (r : SessionReport) : Nat :=
  r.tasks.length - r.succeeded

end SessionReport

namespace Run

/-- Begins to run a prepared session. The run and the queue it emits into are the first
two parties of the relay. -/
def start (p : Prepared) (now : Nat) : Run :=
  let deadline := p.settings.deadlineFrom now
  { id := p.id
    handle := p.handle
    table := p.table
    started := now
    deadline
    files := p.files
    relay := Relay.start p.handle deadline (queueCapacity p.files.length)
      (.ofStreamProgress p.settings.streamProgress) p.mirror 2 }

/-- The one ticket under which the last event is forwarded. -/
def lastTicket : Nat := 0

/-- The last event of the session. -/
def lastEvent (r : Run) : Event :=
  Event.ofSession r.id .completed

/-- Hands an event over. -/
def emit (r : Run) (e : Event) : Run :=
  { r with relay := (r.relay.emit e).2 }

/-- Hands an event over, if there is one. -/
def emit? (r : Run) : Option Event → Run
  | some e => r.emit e
  | none => r

/-- Holds at the points at which the run waits for something. -/
def isSuspended (r : Run) : Bool :=
  match r.phase with
  | .waiting | .overdue | .collecting | .submitting | .awaitingOutcome | .stopping
  | .awaitingStop => true
  | _ => false

/-- Holds of a run that is over. -/
def isOver (r : Run) : Bool :=
  match r.phase with
  | .returned | .abandoned => true
  | _ => false

/-- Holds once the mirror has got its last event: the run has let go of it, and so has every
worker. -/
def mirrorOver (r : Run) : Bool :=
  r.isOver && r.relay.givers = 0

/-- What is said of the session, as far as it is known. -/
def report (r : Run) : SessionReport where
  id := r.id
  tasks := r.workers.map Worker.report
  relay := r.relay.finalStats
  completions := r.completions
  deadlineElapsed := r.deadlineElapsed
  completedDelivery := r.outcome
  elapsed := r.finished - r.started

/-- Gives the next file a task. -/
def queueNext (r : Run) (hub : Hub) : Hub × Run :=
  match r.files with
  | [] => (hub, { r with phase := .spawning })
  | f :: files =>
    let task : FileTask := {
      session := r.id
      id := Identifier.fresh hub.serial
      fileName := f.fileName
      declared := f.declared }
    ({ hub with serial := hub.serial + 1 },
      { r with files, queued := r.queued ++ [(task, f.spool)] }.emit task.currentEvent)

/-- Gives the next task a worker, which is one more party of the relay. -/
def spawnNext (r : Run) : Run :=
  match r.queued with
  | [] => { r with phase := .waiting, relay := r.relay.release }
  | (task, spool) :: queued =>
    { r with
      queued
      workers := r.workers ++ [{ task, spool }]
      barrier := r.barrier.enter
      relay := r.relay.join }

/-! At its end the run lets go of the relay and of the mirror, and closes its entry. A run that
returns lets go of the mirror last; one that is given up closes its entry last. -/

/-- The run is a party of the relay no more. -/
def letGo (r : Run) : Run :=
  { r with relay := r.relay.release }

/-- The run closes its entry. -/
def closeOwn (r : Run) (hub : Hub) : Hub :=
  { hub with registry := (hub.registry.closeEntry r.handle).2 }

/-- One step of the run itself, if it can take one. -/
def advance? (r : Run) (hub : Hub) : Option (Hub × Run) :=
  match r.phase with
  | .announcing =>
    some (hub, { r with phase := .queueing }.emit (Event.ofSession r.id .uploadStarted))
  | .queueing => some (r.queueNext hub)
  | .spawning => some (hub, r.spawnNext)
  | .waiting =>
    match r.barrier.passed? with
    | some n => some (hub, { r with completions := n, phase := .collecting })
    | none =>
      if r.deadline ≤ hub.now then
        some (r.closeOwn hub, { r with deadlineElapsed := true, phase := .overdue })
      else none
  | .overdue =>
    (r.barrier.passed?).map fun n => (hub, { r with completions := n, phase := .collecting })
  | .collecting =>
    if r.workers.all (·.phase.isOver) then some (hub, { r with phase := .submitting }) else none
  | .submitting =>
    some (hub, { r with
      relay := r.relay.submit r.lastEvent lastTicket, phase := .awaitingOutcome })
  | .awaitingOutcome =>
    (r.relay.answer? lastTicket).map fun outcome => (hub, { r with outcome, phase := .stopping })
  | .stopping => some (hub, { r with relay := r.relay.give .stop, phase := .awaitingStop })
  | .awaitingStop =>
    if r.relay.ended.isSome then
      some (r.closeOwn hub, { r.letGo with finished := hub.now, phase := .returned })
    else none
  | .returned | .abandoned => none

/-- A worker after a step, with what the step does to the rest of the session. -/
def applyStep (r : Run) (hub : Hub) (i : Nat) (s : WorkerStep) : Hub × Run :=
  let r := { r with workers := r.workers.set i s.worker }.emit? s.event
  ({ hub with spools := s.spools },
    if s.leaves then { r with relay := r.relay.release, barrier := r.barrier.leave } else r)

/-- Who takes a step. -/
inductive Action where
  | run
  | relay
  | worker (i : Nat)
  deriving DecidableEq, Repr

/-- One step of one of the session's parties, if it can take one. -/
def act? (a : Action) (r : Run) (hub : Hub) : Option (Hub × Run) :=
  match a with
  | .run => r.advance? hub
  | .relay =>
    (r.relay.step? hub.registry hub.now).map fun (relay, registry) =>
      ({ hub with registry }, { r with relay })
  | .worker i =>
    match r.workers[i]? with
    | some w =>
      (w.step? r.table hub.gates hub.spools).map fun s => r.applyStep hub i s
    | none => none

/-- The parties of the session at the moment. -/
def actions (r : Run) : List Action :=
  .run :: .relay :: (List.range r.workers.length).map .worker

/-- Gives the run up: it lets go of the relay and of the mirror, and its entry is closed. The
workers and the relay go on. -/
def abandon (r : Run) (hub : Hub) : Hub × Run :=
  if r.isSuspended then (r.closeOwn hub, { r.letGo with phase := .abandoned })
  else (hub, r)

/-- Takes the worker at a place down. -/
def abortWorker (r : Run) (hub : Hub) (i : Nat) : Hub × Run :=
  match r.workers[i]? with
  | some w =>
    if w.phase.isOver then (hub, r)
    else
      let (w', events) := w.abort
      let r := events.foldl emit { r with workers := r.workers.set i w' }
      ({ hub with spools := hub.spools.remove w.spool },
        { r with relay := r.relay.release, barrier := r.barrier.leave })
  | none => (hub, r)

/-- Takes all workers down. -/
def abortWorkers (r : Run) (hub : Hub) : Hub × Run :=
  (List.range r.workers.length).foldl (fun (hub, r) i => r.abortWorker hub i) (hub, r)

/-- Takes the relay down. -/
def killRelay (r : Run) : Run :=
  { r with relay := r.relay.kill }

end Run
end Intake
