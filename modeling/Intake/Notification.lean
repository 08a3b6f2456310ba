import Intake.Event
import Intake.Json
import Intake.Timestamp

/-!
# Notifications

An event with the time at which it was made: the record that goes over the wire as
one JSON object. Writing leaves an absent reason out and keeps an absent file name as
`null`. Reading takes an object with the members in any order, ignoring those it does
not know, or an array of the members in their written order.
-/

namespace Intake

/-- A stage from its JSON form: its name, or an object with the name and `null`. -/
def EventState.ofJson? : Json → Option EventState
  | .string (some s) => EventState.ofLabel? s
  | .object [(some s, .null)] => EventState.ofLabel? s
  | _ => none

/-- An event and the time at which it was made. -/
structure Notification where
  event : Event
  timestamp : Timestamp
  deriving DecidableEq, Repr

namespace Notification

/-! ## Writing -/

/-- A member with a text. -/
def writeMember (name : String) (text : List Char) : List Char :=
  Json.writeString name ++ [':'] ++ text

/-- A text, or `null`. -/
def writeOptional : Option String → List Char
  | some s => Json.writeString s
  | none => ['n', 'u', 'l', 'l']

/-- The members in their order on the wire. -/
def writeMembers (n : Notification) : List (List Char) :=
  [writeMember "guid" (Json.writeString n.event.guid),
    writeMember "uuid" (Json.writeString n.event.uuid),
    writeMember "event" (Json.writeString n.event.state.label),
    writeMember "data" (writeOptional n.event.fileName)]
  ++ (match n.event.reason with
    | some r => [writeMember "reason" (Json.writeString r)]
    | none => [])
  ++ [writeMember "timestamp" ('"' :: (n.timestamp.writeChars ++ ['"']))]

/-- The characters of a notification on the wire. -/
def writeChars (n : Notification) : List Char :=
  ['\x7b'] ++ [','].intercalate n.writeMembers ++ ['\x7d']

/-- A notification on the wire. -/
def write (n : Notification) : String :=
  String.ofList n.writeChars

/-! ## Reading -/

/-- A text. -/
def textOf? : Json → Option String
  | .string s => s
  | _ => none

/-- A text or `null`. -/
def optionalOf? : Json → Option (Option String)
  | .null => some none
  | .string (some s) => some (some s)
  | _ => none

/-- A timestamp. -/
def timestampOf? : Json → Option Timestamp
  | .string (some s) => Timestamp.read? s
  | _ => none

/-- The members seen so far while an object is read. -/
structure Draft where
  guid : Option String := none
  uuid : Option String := none
  state : Option EventState := none
  fileName : Option (Option String) := none
  reason : Option (Option String) := none
  timestamp : Option Timestamp := none

namespace Draft

/-- Fills a member once; a second time is an error, and so is a value that does not fit. -/
def put (d : Draft) (key : String) (v : Json) : Option Draft :=
  match key with
  | "guid" => if d.guid.isSome then none else do some { d with guid := some (← textOf? v) }
  | "uuid" => if d.uuid.isSome then none else do some { d with uuid := some (← textOf? v) }
  | "event" =>
    if d.state.isSome then none else do some { d with state := some (← EventState.ofJson? v) }
  | "data" =>
    if d.fileName.isSome then none else do some { d with fileName := some (← optionalOf? v) }
  | "reason" =>
    if d.reason.isSome then none else do some { d with reason := some (← optionalOf? v) }
  | "timestamp" =>
    if d.timestamp.isSome then none else do some { d with timestamp := some (← timestampOf? v) }
  | _ => some d

/-- Fills the members of an object one after the other. -/
def putAll (d : Draft) : List (Option String × Json) → Option Draft
  | [] => some d
  | (some key, v) :: r =>
    match d.put key v with
    | some d' => d'.putAll r
    | none => none
  | (none, _) :: _ => none

/-- The notification, if no required member is missing. -/
def finish (d : Draft) : Option Notification := do
  some {
    event := {
      guid := ← d.guid
      uuid := ← d.uuid
      state := ← d.state
      fileName := d.fileName.getD none
      reason := d.reason.getD none }
    timestamp := ← d.timestamp }

end Draft

/-- A notification from its JSON form. -/
def ofJson? : Json → Option Notification
  | .object members => do (← Draft.putAll {} members).finish
  | .array [guid, uuid, state, fileName, reason, timestamp] => do
    some {
      event := {
        guid := ← textOf? guid
        uuid := ← textOf? uuid
        state := ← EventState.ofJson? state
        fileName := ← optionalOf? fileName
        reason := ← optionalOf? reason }
      timestamp := ← timestampOf? timestamp }
  | _ => none

/-- Reads a notification. -/
def read? (s : String) : Option Notification := do
  ofJson? (← Json.read? s)

end Notification
end Intake
