import Intake.Text.Utf8
import Intake.Toml.Reader
import Intake.Toml.Writer

/-!
# Configuration

The settings of the service. Every key has a built-in value, so a missing key, section
or file still gives a usable configuration. A text is read, filled up with the built-in
values and then checked. `write?` hands every key with its value to a serializer.
-/

namespace Intake

/-- Where the service listens. -/
structure ServerConfig where
  host : String := "127.0.0.1"
  port : Nat := 9001
  deriving DecidableEq, Repr

/-- How upload sessions run. -/
structure UploadConfig where
  /-- How long events are delivered after a session starts. -/
  timeoutSecs : Nat := 30
  /-- The most files of one session. -/
  maxFiles : Nat := 10
  /-- The longest body of an upload. -/
  maxBodyBytes : Nat := 10485760
  /-- Whether events between the milestones are shown. -/
  streamProgress : Bool := true
  /-- The records and rows that a preview keeps. -/
  csvPreviewRows : Nat := 10
  /-- How long a reader waits for its session to be opened. -/
  sseAttachGraceMs : Nat := 1000
  deriving DecidableEq, Repr

/-- What is logged. -/
structure LoggingConfig where
  level : String := "info"
  deriving DecidableEq, Repr

/-- The settings of the service. -/
structure Config where
  server : ServerConfig := {}
  upload : UploadConfig := {}
  logging : LoggingConfig := {}
  deriving DecidableEq, Repr

/-- Why a configuration cannot be used. -/
inductive ConfigError where
  /-- The text is not a configuration in TOML. -/
  | malformed
  /-- The file cannot be read as text. -/
  | unreadable (path : String)
  | timeoutZero
  | timeoutTooLong
  | noFiles
  deriving DecidableEq, Repr

namespace ConfigError

/-- The longest timeout, one day in seconds. -/
def maxTimeoutSecs : Nat := 86400

/-- The wording without the kind of error in front. -/
def detail : ConfigError → String
  | malformed => "Parse TOML failed: not a configuration"
  | unreadable path => "Read " ++ path ++ " failed: not a readable text"
  | timeoutZero => "upload.timeout_secs must be greater than 0"
  | timeoutTooLong => "upload.timeout_secs must be at most " ++ toString maxTimeoutSecs
  | noFiles => "upload.max_files must be greater than 0"

/-- The wording. -/
def message (e : ConfigError) : String :=
  "Configuration error: " ++ e.detail

end ConfigError

namespace Config

/-! ## Reading -/

/-- The value of one key: the built-in one if the key is absent, nothing if it does
not fit. -/
def field {α : Type} (read : Toml → Option α) (builtIn : α) : Option Toml → Option α
  | none => some builtIn
  | some v => read v

/-- A text. -/
def textOf? : Toml → Option String
  | .string s => some s
  | _ => none

/-- A truth value. -/
def flagOf? : Toml → Option Bool
  | .boolean b => some b
  | _ => none

/-- A whole number from zero to a largest one. -/
def numberOf? (largest : Nat) : Toml → Option Nat
  | .integer n => if 0 ≤ n && n ≤ largest then some n.toNat else none
  | _ => none

/-- The largest number of a port. -/
def maxPort : Nat := 65535

/-- The largest number of any other key. -/
def maxNumber : Nat := Nat.pow 2 64 - 1

/-- The value of the `i`-th key of a section: by name in a table, by place in an array. -/
def lookup (name : String) (i : Nat) : Toml → Option Toml
  | .table _ entries => Toml.get? entries name
  | .array items => items[i]?
  | .tables elements => (elements[i]?).map (Toml.table .header)
  | _ => none

/-- Holds of the values that may stand for a section. -/
def isSection : Toml → Bool
  | .table .. | .array .. | .tables .. => true
  | _ => false

/-- The listener's section. -/
def readServer (v : Toml) : Option ServerConfig := do
  if !isSection v then none
  some {
    host := ← field textOf? ({} : ServerConfig).host (lookup "host" 0 v)
    port := ← field (numberOf? maxPort) ({} : ServerConfig).port (lookup "port" 1 v) }

/-- The section on upload sessions. -/
def readUpload (v : Toml) : Option UploadConfig := do
  if !isSection v then none
  let builtIn : UploadConfig := {}
  some {
    timeoutSecs := ← field (numberOf? maxNumber) builtIn.timeoutSecs (lookup "timeout_secs" 0 v)
    maxFiles := ← field (numberOf? maxNumber) builtIn.maxFiles (lookup "max_files" 1 v)
    maxBodyBytes := ←
      field (numberOf? maxNumber) builtIn.maxBodyBytes (lookup "max_body_bytes" 2 v)
    streamProgress := ← field flagOf? builtIn.streamProgress (lookup "stream_progress" 3 v)
    csvPreviewRows := ←
      field (numberOf? maxNumber) builtIn.csvPreviewRows (lookup "csv_preview_rows" 4 v)
    sseAttachGraceMs := ←
      field (numberOf? maxNumber) builtIn.sseAttachGraceMs (lookup "sse_attach_grace_ms" 5 v) }

/-- The section on logging. -/
def readLogging (v : Toml) : Option LoggingConfig := do
  if !isSection v then none
  some { level := ← field textOf? ({} : LoggingConfig).level (lookup "level" 0 v) }

/-- The configuration of a root table, not yet checked. -/
def ofEntries? (root : Toml.Entries) : Option Config := do
  some {
    server := ← field readServer {} (Toml.get? root "server")
    upload := ← field readUpload {} (Toml.get? root "upload")
    logging := ← field readLogging {} (Toml.get? root "logging") }

/-- Refuses the values that the service cannot run with. -/
def check (c : Config) : Except ConfigError Config :=
  if c.upload.timeoutSecs = 0 then .error .timeoutZero
  else if ConfigError.maxTimeoutSecs < c.upload.timeoutSecs then .error .timeoutTooLong
  else if c.upload.maxFiles = 0 then .error .noFiles
  else .ok c

/-- Reads and checks a configuration text. -/
def read (text : String) : Except ConfigError Config :=
  match (Toml.read? text).bind ofEntries? with
  | some c => c.check
  | none => .error .malformed

/-- Reads and checks the bytes of a configuration file. -/
def readFile (path : String) (content : Option Bytes) : Except ConfigError Config :=
  match content.bind Utf8.text? with
  | some text => read text
  | none => .error (.unreadable path)

/-- The configuration that applies: that of the given path, which must be readable,
else that of the user's own file if there is one, else the built-in one. -/
def resolve (explicit : Option String) (userPath : Option String)
    (content : String → Option Bytes) : Except ConfigError Config :=
  match explicit with
  | some path => readFile path (content path)
  | none =>
    match userPath with
    | some path => if (content path).isSome then readFile path (content path) else .ok {}
    | none => .ok {}

/-! ## Writing -/

/-- Every key of a configuration with its value, in three sections. -/
def sections (c : Config) : Toml.Sections :=
  [("server", [("host", .string c.server.host), ("port", .integer c.server.port)]),
    ("upload",
      [("timeout_secs", .integer c.upload.timeoutSecs),
        ("max_files", .integer c.upload.maxFiles),
        ("max_body_bytes", .integer c.upload.maxBodyBytes),
        ("stream_progress", .boolean c.upload.streamProgress),
        ("csv_preview_rows", .integer c.upload.csvPreviewRows),
        ("sse_attach_grace_ms", .integer c.upload.sseAttachGraceMs)]),
    ("logging", [("level", .string c.logging.level)])]

/-- A configuration as a text, if the serializer gives one. -/
def write? (serializer : Toml.Serializer) (c : Config) : Option String :=
  serializer c.sections

end Config
end Intake
