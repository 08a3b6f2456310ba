/-!
# Progress events

What an observer of an upload session is told. A session event concerns the whole
batch and has an empty task id; a task event carries the id of its file task and
the file's name. A filter decides which events observers see at all.
-/

namespace Intake

/-- The stages of a session and of its files. -/
inductive EventState where
  | uploadStarted
  | fileQueued
  | fileProcessingStarted
  | fileProcessed
  | fileProcessingError
  | fileCompleted
  | completed
  deriving DecidableEq, Repr

namespace EventState

/-- Every stage, in the order in which a session meets them. -/
def all : List EventState :=
  [uploadStarted, fileQueued, fileProcessingStarted, fileProcessed, fileProcessingError,
    fileCompleted, completed]

/-- The name of the stage on the wire. -/
def label : EventState → String
  | uploadStarted => "upload_started"
  | fileQueued => "file_queued"
  | fileProcessingStarted => "file_processing_started"
  | fileProcessed => "file_processed"
  | fileProcessingError => "file_processing_error"
  | fileCompleted => "file_completed"
  | completed => "completed"

/-- The stage with a given name. -/
def ofLabel? (s : String) : Option EventState :=
  all.find? (fun e => e.label == s)

/-- Milestones are shown even when progress is not. -/
def isMilestone : EventState → Bool
  | fileProcessed | fileProcessingError | fileCompleted | completed => true
  | _ => false

/-- The stage after which nothing follows on a stream. -/
def isTerminal : EventState → Bool
  | completed => true
  | _ => false

@[simp] theorem ofLabel?_label (e : EventState) : ofLabel? e.label = some e := by
  cases e <;> decide

end EventState

/-- One thing that happened in a session. -/
structure Event where
  /-- The session's id. -/
  guid : String
  /-- The task's id; empty for the session as a whole. -/
  uuid : String
  state : EventState
  fileName : Option String
  reason : Option String
  deriving DecidableEq, Repr

namespace Event

/-- An event of the session as a whole. -/
def ofSession (guid : String) (state : EventState) : Event :=
  { guid, uuid := "", state, fileName := none, reason := none }

/-- An event of one file task. -/
def ofTask (guid uuid : String) (state : EventState) (fileName : String) : Event :=
  { guid, uuid, state, fileName := some fileName, reason := none }

/-- The event with a reason attached. -/
def because (e : Event) (reason : String) : Event :=
  { e with reason := some reason }

/-- Holds of the events that concern the session as a whole. -/
def isSessionLevel (e : Event) : Bool :=
  e.uuid == ""

end Event

/-- Which events reach observers. -/
inductive ProgressFilter where
  | all
  | milestonesOnly
  deriving DecidableEq, Repr

namespace ProgressFilter

/-- Full progress, or milestones alone. -/
def ofStreamProgress (streamProgress : Bool) : ProgressFilter :=
  if streamProgress then all else milestonesOnly

/-- Whether an event passes. -/
def admits (f : ProgressFilter) (e : Event) : Bool :=
  match f with
  | all => true
  | milestonesOnly => e.state.isMilestone

end ProgressFilter

end Intake
