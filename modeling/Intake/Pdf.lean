import Intake.Extraction
import Intake.Pdf.Page
import Intake.Text.Lines

/-!
# Portable documents

The text of a portable document: what its pages show, one after the other, with the
lines trimmed and the blank ones dropped. A file that is no such document is malformed,
and so is one whose pages cannot be shown, which is said in other words.
-/

namespace Intake.Pdf

/-- What is said of a file whose frame cannot be read. -/
def unreadable : String := "not a portable document"

/-- What is said of a file with a page that cannot be shown. -/
def gaveUp : String := "pdf parser panicked"

/-- The text of a file, before it is tidied. -/
def text (content : Bytes) : Conduct (Except ExtractionError String) :=
  match File.read? content with
  | none => .returned (.error (.malformed unreadable))
  | some f =>
    match f.pages.foldlM f.showPage? {} with
    | some shown => .returned (.ok (String.ofList shown.chars.reverse))
    | none => .panicked none

/-- The text of a file. -/
def extract (content : Bytes) : Except ExtractionError String :=
  match text content with
  | .returned r => r.map Text.tidyLines
  | .panicked _ => .error (.malformed gaveUp)

end Intake.Pdf
