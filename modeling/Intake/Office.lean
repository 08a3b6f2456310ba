import Intake.Extraction
import Intake.Office.Document
import Intake.Office.Workbook

/-!
# Office files

An office file is read as a word-processing document; if it is none, its first sheet is
previewed. The error of a file that is neither names both attempts.
-/

namespace Intake.Office

/-- What is said of a file that is no word-processing document. -/
def notDocument : String := "not a word-processing document"

/-- What is said of a file that shows no sheet. -/
def Workbook.Failure.detail : Workbook.Failure → String
  | .noSheets => "workbook has no sheets"
  | .unreadable => "not a workbook"

/-- The first rows of the first sheet of a file. -/
def preview (rows : Nat) (content : Bytes) : Except Workbook.Failure String :=
  match Archive.read? content with
  | some a => Workbook.extract rows a
  | none => .error .unreadable

/-- The text of an office file. -/
def extract (rows : Nat) (content : Bytes) : Except ExtractionError String :=
  match (Archive.read? content).bind Document.extract? with
  | some text => .ok text
  | none =>
    match preview rows content with
    | .ok text => .ok text
    | .error f =>
      .error (.malformed
        ("neither docx (" ++ notDocument ++ ") nor xlsx (" ++ f.detail ++ ")"))

end Intake.Office
