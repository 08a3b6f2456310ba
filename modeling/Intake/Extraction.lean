import Intake.Text.Utf8

/-!
# Extraction outcomes

How an attempt to get the text out of a file ends: with a text, with an error, or with
the extractor giving up in the middle and leaving a note, or none, of why.
-/

namespace Intake

/-- Why no text was found. -/
inductive ExtractionError where
  | io (detail : String)
  | encoding
  | malformed (detail : String)
  deriving DecidableEq, Repr

namespace ExtractionError

/-- The wording. -/
def message : ExtractionError → String
  | io detail => "I/O error: " ++ detail
  | encoding => "content is not valid UTF-8"
  | malformed detail => "malformed document: " ++ detail

end ExtractionError

/-- How a piece of foreign code ends. -/
inductive Conduct (α : Type) where
  | returned (value : α)
  /-- It gave up, with a note if it left one. -/
  | panicked (note : Option String)
  deriving DecidableEq, Repr

namespace Conduct

/-- The note that is shown for code that gave up. -/
def note : Option String → String
  | some s => s
  | none => "unknown panic"

end Conduct

namespace PlainText

/-- The byte-order mark. -/
def mark : Char := '\uFEFF'

/-- The characters of a file in UTF-8, without a byte-order mark in front. -/
def chars? (content : Bytes) : Except ExtractionError (List Char) :=
  match Utf8.decode? content with
  | some (c :: cs) => .ok (if c = mark then cs else c :: cs)
  | some [] => .ok []
  | none => .error .encoding

/-- The text of a file in UTF-8, without a byte-order mark in front. -/
def extract (content : Bytes) : Except ExtractionError String :=
  (chars? content).map String.ofList

end PlainText
end Intake
