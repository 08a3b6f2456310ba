import Intake.Text.Blank

/-!
# Lines

A text is cut into lines at each line feed; a carriage return directly before the
line feed belongs to the line end. A text that ends with a line feed has no empty
last line.
-/

namespace Intake.Text

/-- Takes one carriage return off the end of a line held in reverse. -/
def dropReturn : List Char → List Char
  | '\r' :: r => r
  | r => r

/-- Reads on with the current line in reverse and the finished lines in reverse. -/
def linesFrom (line : List Char) (done : List (List Char)) : List Char → List (List Char)
  | [] => (if line.isEmpty then done else line.reverse :: done).reverse
  | '\n' :: r => linesFrom [] ((dropReturn line).reverse :: done) r
  | c :: r => linesFrom (c :: line) done r

/-- The lines of a text, without their ends. -/
def linesOf (cs : List Char) : List (List Char) :=
  linesFrom [] [] cs

/-- The pieces between the occurrences of a character; one more than there are of it. -/
def splitFrom (sep : Char) (piece : List Char) (done : List (List Char)) :
    List Char → List (List Char)
  | [] => (piece.reverse :: done).reverse
  | c :: r =>
    if c = sep then splitFrom sep [] (piece.reverse :: done) r
    else splitFrom sep (c :: piece) done r

/-- The pieces between the occurrences of a character. -/
def splitAt (sep : Char) (cs : List Char) : List (List Char) :=
  splitFrom sep [] [] cs

/-- Trims every line and drops the blank ones. -/
def tidyLines (s : String) : String :=
  let kept := ((linesOf s.toList).map trimChars).filter (fun l => !l.isEmpty)
  "\n".intercalate (kept.map String.ofList)

end Intake.Text
