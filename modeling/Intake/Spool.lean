import Intake.Text.Blank
import Intake.Text.Utf8

/-!
# Spooled files

Each submitted file is written to a temporary file of its own, which is there until it is
removed. The table of all such files that were ever written says which are still there.
-/

namespace Intake

/-- The place of a temporary file in the table. -/
abbrev Spool := Nat

/-- How a temporary file is found. -/
inductive FileState where
  | readable (content : Bytes)
  /-- It can be opened, but reading it fails. -/
  | unreadable (detail : String)
  | removed
  deriving DecidableEq, Repr

/-- The temporary files, in the order in which they were written. -/
structure Spools where
  files : List FileState := []
  deriving DecidableEq, Repr

namespace Spools

/-- Writes a file. -/
def write (s : Spools) (content : Bytes) : Spool × Spools :=
  (s.files.length, { files := s.files ++ [.readable content] })

/-- How a file is found. -/
def state (s : Spools) (f : Spool) : FileState :=
  (s.files[f]?).getD .removed

/-- The content of a file that is still there and can be read. -/
def content? (s : Spools) (f : Spool) : Option Bytes :=
  match s.state f with
  | .readable content => some content
  | .unreadable _ | .removed => none

/-- Removes a file. -/
def remove (s : Spools) (f : Spool) : Spools :=
  { files := s.files.set f .removed }

/-- Removes some files. -/
def removeAll (s : Spools) (fs : List Spool) : Spools :=
  fs.foldl remove s

end Spools

/-- A file that was submitted. -/
structure Submission where
  fileName : String
  /-- The declared type without blanks around it; a blank one is none. -/
  declared : Option String
  size : Nat
  spool : Spool
  deriving DecidableEq, Repr

namespace Submission

/-- A declared type without blanks around it, unless nothing is left. -/
def declaredOf (type : Option String) : Option String :=
  (type.map Text.trim).filter (fun t => !t.isEmpty)

/-- Spools a file. -/
def spooled (spools : Spools) (fileName : String) (type : Option String) (content : Bytes) :
    Submission × Spools :=
  let (spool, spools) := spools.write content
  ({ fileName, declared := declaredOf type, size := content.length, spool }, spools)

end Submission
end Intake
