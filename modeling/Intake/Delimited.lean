import Intake.Extraction
import Intake.Text.Lines

/-!
# Delimited text

Tables as text, with one of five delimiters between the fields. `sniff` picks the
delimiter from the first lines. `records` cuts the text into records: a field that
begins with a double quote may hold delimiters, line ends and doubled quotes; a quote
elsewhere, and one in a quoted field that no field end follows, stands for itself. Blank
lines are no records. The output has one line a record, with `;` between the fields.
-/

namespace Intake.Delimited

/-- The delimiters, in order of preference. -/
def candidates : List Char := [',', '\t', ';', ':', '|']

/-- The fields of one record. -/
abbrev Record := List String

/-! ## Choosing the delimiter -/

/-- How many lines are looked at. -/
def sampleSize : Nat := 15

/-- The first lines that are not blank. -/
def sample (cs : List Char) : List (List Char) :=
  ((Text.linesOf cs).filter (fun l => !l.all Text.isBlank)).take sampleSize

/-- Counts on, knowing whether a quoted part is open. -/
def countFrom (delimiter : Char) (quoted : Bool) (n : Nat) : List Char → Nat
  | [] => n
  | c :: r =>
    let quoted' := if c = '"' then !quoted else quoted
    countFrom delimiter quoted' (if c = delimiter && !quoted' then n + 1 else n) r

/-- How often a delimiter stands outside quotes in a line. Each quote opens or closes. -/
def count (delimiter : Char) (line : List Char) : Nat :=
  countFrom delimiter false 0 line

/-- The standing of a delimiter: whether every line has the same count, and the least. -/
structure Standing where
  delimiter : Char
  consistent : Bool
  least : Nat
  deriving DecidableEq, Repr

/-- Holds if the first standing is strictly better: consistent against not, then more. -/
def Standing.beats (a b : Standing) : Bool :=
  (a.consistent && !b.consistent) || (a.consistent == b.consistent && b.least < a.least)

/-- The standing of a delimiter in a sample; none if some line lacks it. -/
def standing? (lines : List (List Char)) (delimiter : Char) : Option Standing :=
  match lines.map (count delimiter) with
  | [] => none
  | n :: ns =>
    let least := ns.foldl min n
    if least = 0 then none
    else some { delimiter, consistent := (n :: ns).all (· == least), least }

/-- Keeps the best standing so far; an equal one does not replace it. -/
def better (lines : List (List Char)) (best : Standing) (delimiter : Char) : Standing :=
  match standing? lines delimiter with
  | some s => if s.beats best then s else best
  | none => best

/-- The delimiter that cuts the first lines best; a comma if none cuts them all. -/
def sniff (cs : List Char) : Char :=
  (candidates.foldl (better (sample cs)) ⟨',', false, 0⟩).delimiter

/-! ## Cutting into records -/

/-- Where a scan stands with respect to quotes. -/
inductive Mode where
  | bare
  /-- Inside a quoted field. -/
  | quoted
  /-- After a quote inside a quoted field: it closes the field, is the first of two, or
  stands for itself, as the next character says. -/
  | closing
  deriving DecidableEq, Repr

/-- A scan in the middle of a text. -/
structure Scan where
  /-- The finished records, the last first. -/
  done : List Record := []
  /-- The finished fields of the current record, the last first. -/
  fields : List String := []
  /-- The characters of the current field, the last first. -/
  field : List Char := []
  /-- Nothing of the current field has been read. -/
  fresh : Bool := true
  deriving DecidableEq, Repr

namespace Scan

/-- Reads one more character of the field. -/
def push (s : Scan) (c : Char) : Scan :=
  { s with field := c :: s.field, fresh := false }

/-- The current field as a text. -/
def text (s : Scan) : String :=
  String.ofList s.field.reverse

/-- Ends the field. -/
def endField (s : Scan) : Scan :=
  { s with fields := s.text :: s.fields, field := [], fresh := true }

/-- Holds on a line of which nothing has been read. -/
def atLineStart (s : Scan) : Bool :=
  s.fields.isEmpty && s.field.isEmpty && s.fresh

/-- Ends the field and the record. -/
def endRecord (s : Scan) : Scan :=
  { done := (s.text :: s.fields).reverse :: s.done }

/-- The finished records in their order. -/
def records (s : Scan) : List Record :=
  s.done.reverse

/-- Ends the record if anything of it has been read. -/
def finish (s : Scan) : List Record :=
  if s.atLineStart then s.records else s.endRecord.records

/-- Holds when as many records are finished as are asked for. -/
def full (limit : Option Nat) (s : Scan) : Bool :=
  match limit with
  | some n => n ≤ s.done.length
  | none => false

end Scan

/-- Holds of the characters that end a quoted field after its closing quote. -/
def endsField (delimiter c : Char) : Bool :=
  c = delimiter || c = '\n' || c = '\r'

/-- What a character outside quotes does, given the one after it. -/
def bareStep (delimiter : Char) (next : Option Char) (s : Scan) (c : Char) : Mode × Scan :=
  if c = '"' && s.fresh then (.quoted, { s with fresh := false })
  else if c = '\r' && next == some '\n' then (.bare, s)
  else if c = '\n' || c = '\r' then (.bare, if s.atLineStart then s else s.endRecord)
  else if c = delimiter then (.bare, s.endField)
  else (.bare, s.push c)

/-- What a character does, given the one after it. -/
def step (delimiter : Char) (next : Option Char) (mode : Mode) (s : Scan) (c : Char) :
    Mode × Scan :=
  match mode with
  | .bare => bareStep delimiter next s c
  | .quoted => if c = '"' then (.closing, s) else (.quoted, s.push c)
  | .closing =>
    if c = '"' then (.quoted, s.push '"')
    else if endsField delimiter c then bareStep delimiter next s c
    else (.quoted, (s.push '"').push c)

/-- Reads on until the text ends or enough records are finished. -/
def scan (delimiter : Char) (limit : Option Nat) (mode : Mode) (s : Scan) :
    List Char → List Record
  | [] => s.finish
  | c :: r =>
    let (mode', s') := step delimiter r.head? mode s c
    if s'.full limit then s'.records else scan delimiter limit mode' s' r

/-- The records of a text, at most `limit` of them. -/
def records (cs : List Char) (delimiter : Char) (limit : Option Nat) : List Record :=
  if Scan.full limit {} then [] else scan delimiter limit .bare {} cs

/-! ## Output -/

/-- One record as a line. -/
def line (record : Record) : String :=
  ";".intercalate record ++ "\n"

/-- Records as lines. -/
def render (rs : List Record) : String :=
  String.join (rs.map line)

/-- The normalized table of a file, at most `limit` records of it. -/
def extract (limit : Option Nat) (content : Bytes) : Except ExtractionError String :=
  (PlainText.chars? content).map fun cs => render (records cs (sniff cs) limit)

end Intake.Delimited
