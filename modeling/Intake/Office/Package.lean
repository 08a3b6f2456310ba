import Intake.Archive
import Intake.Text.Lines
import Intake.Xml

/-!
# Office packages

An office document is an archive of parts. A part's relationships stand in a part of
their own beside it, and name other parts by an id, a type and a target.
-/

namespace Intake.Office

/-- A pointer from one part to another. -/
structure Relationship where
  id : String
  kind : String
  target : String
  deriving DecidableEq, Repr

namespace Relationship

/-- The relationships that a part lists. -/
def list (part : Xml) : List Relationship :=
  (Xml.named "Relationship" part).map fun (attributes, _) => {
    id := (Xml.valueOf? "Id" attributes).getD ""
    kind := (Xml.valueOf? "Type" attributes).getD ""
    target := (Xml.valueOf? "Target" attributes).getD "" }

end Relationship

/-- A part's name without a slash in front. -/
def withoutSlash (name : String) : String :=
  match name.toList with
  | '/' :: r => String.ofList r
  | _ => name

/-- The bytes of a part. -/
def part? (a : Archive) (name : String) : Option Bytes := do
  a.content? (← a.entry? (withoutSlash name))

/-- A path as its directory and its last component. -/
def splitPath (path : String) : String × String :=
  let parts := Text.splitAt '/' path.toList
  ("/".intercalate (parts.dropLast.map String.ofList), String.ofList (parts.getLastD []))

/-- A file name without what stands after its last period. -/
def stem (name : String) : String :=
  let parts := Text.splitAt '.' name.toList
  if parts.length ≤ 1 || parts.head? == some [] && parts.length = 2 then name
  else ".".intercalate (parts.dropLast.map String.ofList)

/-- The name of the part with the relationships of a part. -/
def relationshipsName (path : String) : String :=
  let (directory, name) := splitPath path
  (if directory.isEmpty then "" else directory ++ "/") ++ "_rels/" ++ stem name ++ ".xml.rels"

end Intake.Office
