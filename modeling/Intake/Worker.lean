import Intake.Media.Sniff
import Intake.Route
import Intake.Spool
import Intake.Task

/-!
# Workers

A worker takes one file through its task: it announces the start, opens and reads the
file, announces the outcome, announces the end, and gives its ticket back. `Examination.of`
says what is found in a file, with no regard to events. A worker that is taken down in
the middle still announces what is missing.

It can do so from its first turn on, when it takes its task into its own hands. What was
started and goes away without ever having had a turn is no worker in this sense: it
announces nothing, and only its ticket and its file go back.
-/

namespace Intake

/-- What reading a file came to: the detected type, and the text or the failure. -/
structure Finding where
  detected : Option String
  result : Except TaskFailure String

namespace Finding

/-- What an extractor found in a file. One that gives up leaves no detected type. -/
def ofExtraction (detected : String) (x : Extractor) (content : Bytes) : Finding :=
  match x.extract content with
  | .returned (.ok text) => ⟨some detected, .ok text⟩
  | .returned (.error e) => ⟨some detected, .error (.extraction x.name e)⟩
  | .panicked note => ⟨none, .error (.panicked (Conduct.note note))⟩

end Finding

/-- What is to be done with a file. -/
inductive Examination where
  | found (finding : Finding)
  /-- An extractor has to be asked. -/
  | ask (detected : String) (extractor : Extractor) (content : Bytes)

/-- What is said of a file that is not there. -/
def missingFile : String := "no such file"

/-- Opens a file, detects its type and picks the extractor. -/
def Examination.of (table : ExtractorTable) (fileName : String) (declared : Option String)
    (file : FileState) : Examination :=
  match file with
  | .removed => .found ⟨none, .error (.unopened missingFile)⟩
  | .unreadable detail => .found ⟨none, .error (.unread detail)⟩
  | .readable content =>
    let detected := Media.sniff content
    match table.route { fileName, declared, detected } with
    | .returned (some x) => .ask detected x content
    | .returned none => .found ⟨some detected, .error .unsupported⟩
    | .panicked note => .found ⟨none, .error (.panicked (Conduct.note note))⟩

/-- How far a worker is. -/
inductive WorkerPhase where
  /-- The worker has its first turn, and nothing was announced. -/
  | ready
  /-- The start was announced. -/
  | opening
  /-- An extractor is at work. -/
  | reading (detected : String) (extractor : Extractor) (content : Bytes)
  | judging (finding : Finding)
  /-- The outcome was announced. -/
  | closing
  /-- The end was announced. -/
  | leaving
  | finished
  /-- The worker was taken down. -/
  | lost

namespace WorkerPhase

/-- Holds of a worker that has nothing more to do. -/
def isOver : WorkerPhase → Bool
  | finished | lost => true
  | _ => false

end WorkerPhase

/-- One file task in work. -/
structure Worker where
  task : FileTask
  spool : Spool
  phase : WorkerPhase := .ready

/-- What a step of a worker comes to. -/
structure WorkerStep where
  worker : Worker
  spools : Spools
  /-- The event that the worker hands over. -/
  event : Option Event := none
  /-- The worker gives its ticket back. -/
  leaves : Bool := false

namespace Worker

/-- The task after a step, and the event; a step that is not allowed gives none. -/
def apply (t : FileTask) (r : Except TransitionError (FileTask × Event)) :
    FileTask × Option Event :=
  match r with
  | .ok (t, e) => (t, some e)
  | .error _ => (t, none)

/-- The failure behind a text with nothing in it. -/
def judge (finding : Finding) : Except TaskFailure String :=
  match finding.result with
  | .ok text => if Text.blank text then .error .emptyContent else .ok text
  | .error f => .error f

/-- Records a finding. -/
def conclude (t : FileTask) (finding : Finding) : FileTask × Option Event :=
  let t := t.detect finding.detected
  match judge finding with
  | .ok text => apply t (t.succeed text)
  | .error f => apply t (t.fail f)

/-- Holds if an extractor need not wait. -/
def gateOpen (gates : List String) (x : Extractor) : Bool :=
  match x.gate with
  | some g => gates.contains g
  | none => true

/-- One step of a worker, if it can take one. -/
def step? (table : ExtractorTable) (gates : List String) (spools : Spools) (w : Worker) :
    Option WorkerStep :=
  match w.phase with
  | .ready =>
    let (task, event) := apply w.task (w.task.transition .processingStarted)
    some { worker := { w with task, phase := .opening }, spools, event }
  | .opening =>
    match Examination.of table w.task.fileName w.task.declared (spools.state w.spool) with
    | .found finding =>
      some { worker := { w with phase := .judging finding }, spools := spools.remove w.spool }
    | .ask detected x content =>
      some { worker := { w with phase := .reading detected x content }, spools }
  | .reading detected x content =>
    if gateOpen gates x then
      let finding := Finding.ofExtraction detected x content
      some { worker := { w with phase := .judging finding }, spools := spools.remove w.spool }
    else none
  | .judging finding =>
    let (task, event) := conclude w.task finding
    some { worker := { w with task, phase := .closing }, spools, event }
  | .closing =>
    let (task, event) := apply w.task (w.task.transition .completed)
    some { worker := { w with task, phase := .leaving }, spools, event }
  | .leaving => some { worker := { w with phase := .finished }, spools, leaves := true }
  | .finished | .lost => none

/-- A step of the finalizer: the task and the events so far. -/
def finalStep (s : FileTask × List Event) (due : Bool)
    (step : FileTask → Except TransitionError (FileTask × Event)) : FileTask × List Event :=
  if due then
    let (t, e) := apply s.1 (step s.1)
    (t, s.2 ++ e.toList)
  else s

/-- Ends the sequence of a task that was left in the middle: the task and the events that
were missing. -/
def finalize (t : FileTask) : FileTask × List Event :=
  let s := (t, [])
  let s := finalStep s (s.1.state == .queued) (·.transition .processingStarted)
  let s := finalStep s (s.1.state == .processingStarted) (·.fail .aborted)
  finalStep s (!s.1.state.isTerminal) (·.transition .completed)

/-- Takes a worker down that has had a turn, with the events that it still hands over. -/
def abort (w : Worker) : Worker × List Event :=
  if w.phase.isOver then (w, [])
  else
    let (task, events) := finalize w.task
    ({ w with task, phase := .lost }, events)

/-- What is said of a worker's file at the end. -/
def report (w : Worker) : TaskReport :=
  match w.phase with
  | .lost => .lost w.task.id w.task.fileName w.task.declared
  | _ => w.task.report

end Worker
end Intake
