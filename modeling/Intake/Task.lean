import Intake.Event
import Intake.Extraction

/-!
# File tasks

The work on one file of a session. A task goes from queued to started, then to processed
or failed, then to completed. Each step that is allowed gives one event, and a step that
is not allowed changes nothing. A result is recorded once, with the step that brings it:
a text, or the reason of a failure.
-/

namespace Intake

/-- How far a task is. -/
inductive TaskState where
  | queued
  | processingStarted
  | processed
  | processingError
  | completed
  deriving DecidableEq, Repr

namespace TaskState

/-- Every state, in the order in which a task can meet them. -/
def all : List TaskState :=
  [queued, processingStarted, processed, processingError, completed]

/-- The name of a state in reports. -/
def label : TaskState → String
  | queued => "queued"
  | processingStarted => "processing_started"
  | processed => "processed"
  | processingError => "processing_error"
  | completed => "completed"

/-- The name of a state in messages. -/
def title : TaskState → String
  | queued => "Queued"
  | processingStarted => "ProcessingStarted"
  | processed => "Processed"
  | processingError => "ProcessingError"
  | completed => "Completed"

/-- The event stage that announces a state. -/
def event : TaskState → EventState
  | queued => .fileQueued
  | processingStarted => .fileProcessingStarted
  | processed => .fileProcessed
  | processingError => .fileProcessingError
  | completed => .fileCompleted

/-- The steps that are allowed. -/
def allows : TaskState → TaskState → Bool
  | queued, processingStarted => true
  | processingStarted, processed => true
  | processingStarted, processingError => true
  | processed, completed => true
  | processingError, completed => true
  | _, _ => false

/-- The state that nothing follows. -/
def isTerminal : TaskState → Bool
  | completed => true
  | _ => false

end TaskState

/-- A step that is not allowed. -/
structure TransitionError where
  source : TaskState
  target : TaskState
  deriving DecidableEq, Repr

/-- The wording. -/
def TransitionError.message (e : TransitionError) : String :=
  "Invalid task transition: " ++ e.source.title ++ " -> " ++ e.target.title

/-- How a task ended. -/
inductive TaskOutcome where
  | success
  | processingError
  | emptyContent
  deriving DecidableEq, Repr

/-- The name of an outcome in reports. -/
def TaskOutcome.label : TaskOutcome → String
  | success => "success"
  | processingError => "processing_error"
  | emptyContent => "empty_content_error"

/-- Why a task failed. -/
inductive TaskFailure where
  | unopened (detail : String)
  | unread (detail : String)
  | unsupported
  | extraction (extractor : String) (error : ExtractionError)
  | emptyContent
  | panicked (note : String)
  | aborted
  deriving DecidableEq, Repr

namespace TaskFailure

/-- The wording, which is the reason on the wire. -/
def message : TaskFailure → String
  | unopened detail => "cannot open uploaded file: " ++ detail
  | unread detail => "cannot read uploaded file: " ++ detail
  | unsupported => "unsupported content"
  | extraction extractor error => extractor ++ " extraction failed: " ++ error.message
  | emptyContent => "empty content"
  | panicked note => "extractor panicked: " ++ note
  | aborted => "worker aborted"

/-- The outcome that a failure gives a task. -/
def outcome : TaskFailure → TaskOutcome
  | emptyContent => .emptyContent
  | _ => .processingError

end TaskFailure

/-- What is said of a task at the end. -/
structure TaskReport where
  /-- The id of the task. -/
  id : String
  fileName : String
  declared : Option String
  detected : Option String
  state : TaskState
  outcome : Option TaskOutcome
  content : Option String
  reason : Option String
  deriving DecidableEq, Repr

/-- The work on one file. -/
structure FileTask where
  session : String
  id : String
  fileName : String
  declared : Option String
  detected : Option String := none
  state : TaskState := .queued
  outcome : Option TaskOutcome := none
  content : Option String := none
  reason : Option String := none
  deriving DecidableEq, Repr

namespace FileTask

/-- The event that announces the current state. -/
def currentEvent (t : FileTask) : Event :=
  Event.ofTask t.session t.id t.state.event t.fileName

/-- Takes a step, with the event that announces it. -/
def transition (t : FileTask) (next : TaskState) : Except TransitionError (FileTask × Event) :=
  if t.state.allows next then
    let t := { t with state := next }
    .ok (t, t.currentEvent)
  else .error ⟨t.state, next⟩

/-- Ends the processing with a text. -/
def succeed (t : FileTask) (content : String) : Except TransitionError (FileTask × Event) :=
  match t.transition .processed with
  | .ok (t, e) => .ok ({ t with outcome := some .success, content := some content }, e)
  | .error e => .error e

/-- Ends the processing with a failure. -/
def fail (t : FileTask) (failure : TaskFailure) : Except TransitionError (FileTask × Event) :=
  match t.transition .processingError with
  | .ok (t, e) =>
    .ok ({ t with outcome := some failure.outcome, reason := some failure.message },
      e.because failure.message)
  | .error e => .error e

/-- Records the detected type. -/
def detect (t : FileTask) (mime : Option String) : FileTask :=
  { t with detected := mime }

/-- What is said of a task. -/
def report (t : FileTask) : TaskReport where
  id := t.id
  fileName := t.fileName
  declared := t.declared
  detected := t.detected
  state := t.state
  outcome := t.outcome
  content := t.content
  reason := t.reason

end FileTask

/-- What is said of a task whose worker was lost. -/
def TaskReport.lost (id fileName : String) (declared : Option String) : TaskReport where
  id
  fileName
  declared
  detected := none
  state := .completed
  outcome := some .processingError
  content := none
  reason := some TaskFailure.aborted.message

end Intake
