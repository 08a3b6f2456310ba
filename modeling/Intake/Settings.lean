import Intake.Config

/-!
# Session settings

The limits of a session, taken from the configuration. Times are in milliseconds.
-/

namespace Intake

/-- The limits of a session. -/
structure SessionSettings where
  /-- How long events are delivered after a session starts. -/
  timeout : Nat := 30000
  maxFiles : Nat := 10
  streamProgress : Bool := true
  /-- How long a reader waits for its session to be opened. -/
  attachGrace : Nat := 1000
  deriving DecidableEq, Repr

/-- Why a batch of files is refused. -/
inductive BatchError where
  | noFiles
  | tooManyFiles (max submitted : Nat)
  deriving DecidableEq, Repr

/-- The wording. -/
def BatchError.message : BatchError → String
  | noFiles => "at least 1 file required"
  | tooManyFiles max _ => "only " ++ toString max ++ " files maximum allowed"

namespace SessionSettings

/-- The settings of a configuration. -/
def ofConfig (c : UploadConfig) : SessionSettings where
  timeout := c.timeoutSecs * 1000
  maxFiles := c.maxFiles
  streamProgress := c.streamProgress
  attachGrace := c.sseAttachGraceMs

/-- No deadline lies further ahead than thirty years of 365 days. -/
def farFuture : Nat := 86400 * 365 * 30 * 1000

/-- The time at which delivery ends for a session that starts at a given time. -/
def deadlineFrom (s : SessionSettings) (start : Nat) : Nat :=
  start + min s.timeout farFuture

/-- Checks the number of files of a batch. -/
def validateBatch (s : SessionSettings) (submitted : Nat) : Except BatchError Unit :=
  if submitted = 0 then .error .noFiles
  else if s.maxFiles < submitted then .error (.tooManyFiles s.maxFiles submitted)
  else .ok ()

end SessionSettings

/-- The room for the events that a session with a number of files can have. -/
def queueCapacity (files : Nat) : Nat :=
  4 * files + 4

end Intake
