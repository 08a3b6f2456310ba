import Intake.Http.ApiError
import Intake.Http.Form

/-!
# Uploads

The fields of a form become a batch: the fields named `file` are spooled in their order,
and the last field named `guid` names the session. Files above the limit are counted but
not spooled. A session is opened for the batch when all fields were read and the batch and
the id are in order; otherwise nothing of the request stays.
-/

namespace Intake.Http

/-- What was taken from the fields of a form. -/
structure Upload where
  session : Option String := none
  files : List Submission := []
  /-- The number of files in the form, spooled or not. -/
  submitted : Nat := 0
  deriving DecidableEq, Repr

namespace Upload

/-- The name of the fields with files. -/
def fileField : String := "file"

/-- The name of the field with the session's id. -/
def sessionField : String := "guid"

/-- The name of a file that comes without one. -/
def namelessFile : String := "upload"

/-- Takes one field. -/
def take (decode : Decoder) (maxFiles : Nat) (s : Upload × Spools) (f : Field) :
    Upload × Spools :=
  let (u, spools) := s
  if f.name = some sessionField then ({ u with session := some (f.text decode) }, spools)
  else if f.name = some fileField then
    let u := { u with submitted := u.submitted + 1 }
    if maxFiles < u.submitted then (u, spools)
    else
      let (file, spools) := Submission.spooled spools (f.fileName.getD namelessFile)
        (f.type.map Media.Header.text) f.content
      ({ u with files := u.files ++ [file] }, spools)
  else (u, spools)

/-- Takes all fields. -/
def collect (decode : Decoder) (maxFiles : Nat) (fields : List Field) (spools : Spools) :
    Upload × Spools :=
  fields.foldl (take decode maxFiles) ({}, spools)

/-- Removes the files of an upload. -/
def discard (u : Upload) (hub : Hub) : Hub :=
  { hub with spools := hub.spools.removeAll (u.files.map Submission.spool) }

/-- The error for a fault of a form. -/
def errorOfFault : FormError → ApiError
  | .tooLong => .payloadTooLarge FormError.tooLong.message
  | e => .badRequest e.message

/-- Opens a session for a form. A fault of the form is told before a batch that is too small
or too large, and that before an id in use. -/
def open? (decode : Decoder) (table : ExtractorTable) (settings : SessionSettings) (form : Form)
    (hub : Hub) : Except ApiError Prepared × Hub :=
  let (u, spools) := collect decode settings.maxFiles form.fields hub.spools
  let hub := { hub with spools }
  match form.fault with
  | some e => (.error (errorOfFault e), u.discard hub)
  | none =>
    match settings.validateBatch u.submitted with
    | .error e => (.error (.ofSession (.batch e)), u.discard hub)
    | .ok () =>
      match Prepared.open? table settings u.session u.files hub with
      | (.error e, hub) => (.error (.ofSession e), hub)
      | (.ok p, hub) => (.ok p.takeMirror, hub)

end Upload
end Intake.Http
