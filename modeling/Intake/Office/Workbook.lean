import Intake.Decimal
import Intake.Office.Package

/-!
# Workbooks

The first rows of the first sheet of a workbook. The cells with values span a rectangle;
each row of it is a line with `;` between the cells, and a cell without a value leaves a
gap. Texts stand as they are, numbers with the fewest digits, booleans as words and
errors by their names.
-/

namespace Intake.Office.Workbook

/-- Why a workbook shows nothing. -/
inductive Failure where
  | noSheets
  /-- A part is missing, or is not what it should be. -/
  | unreadable
  deriving DecidableEq, Repr

/-! ## Texts -/

/-- What matters inside a text of the workbook. -/
inductive Mark where
  /-- From here on the text consists of several stretches. -/
  | rich
  | stretch (s : String)

mutual

/-- The marks of a node; a reading aid has none. -/
def marks : Xml → List Mark
  | .element name _ children =>
    match Xml.localPart name with
    | "rPh" => []
    | "t" => [.stretch (Xml.textAmong children)]
    | "r" => .rich :: allMarks children
    | _ => allMarks children
  | _ => []

/-- The marks of some nodes. -/
def allMarks : List Xml → List Mark
  | [] => []
  | x :: xs => marks x ++ allMarks xs

end

/-- All stretches as one text. -/
def stretches : List Mark → String
  | [] => ""
  | .stretch s :: r => s ++ stretches r
  | .rich :: r => stretches r

/-- The text inside some nodes: the first stretch if it stands by itself, and otherwise
all stretches. -/
def textOf? (children : List Xml) : Option String :=
  match allMarks children with
  | [] => none
  | .stretch s :: _ => some s
  | .rich :: r => some (stretches r)

/-! ## Cells -/

/-- A place in a sheet; rows and columns count from zero. -/
structure Place where
  row : Nat
  column : Nat
  deriving DecidableEq, Repr

/-- The number that letters write in base 26, where A is 1 and there is no zero. -/
def columnNumber (letters : List Char) : Nat :=
  letters.foldl (fun n c => n * 26 + (c.toUpper.toNat - 'A'.toNat + 1)) 0

/-- The column, if letters stand in front, and the row of a cell reference. -/
def reference? (s : String) : Option (Option Nat × Nat) :=
  let letters := s.toList.takeWhile Char.isAlpha
  match Text.decimal? (s.toList.dropWhile Char.isAlpha) with
  | some row =>
    if row = 0 then none
    else some (if letters.isEmpty then none else some (columnNumber letters - 1), row - 1)
  | none => none

/-- The place of a cell reference. -/
def place? (s : String) : Option Place :=
  match reference? s with
  | some (some column, row) => some ⟨row, column⟩
  | _ => none

/-- The names of the errors in cells. -/
def errorNames : List String :=
  ["#DIV/0!", "#N/A", "#NAME?", "#NULL!", "#NUM!", "#REF!", "#VALUE!", "#GETTING_DATA"]

/-- What a cell shows, given its type and its value as written; `some none` for a cell
without a value. -/
def value? (strings : List String) (kind : Option String) (v : String) :
    Option (Option String) :=
  match kind with
  | some "s" =>
    if v.isEmpty then some none
    else do some (some (← strings[← Text.decimal? v.toList]?))
  | some "b" => some (some (if v == "0" then "false" else "true"))
  | some "e" => if errorNames.contains v then some (some v) else none
  | some "d" | some "str" => some (some v)
  | some "n" => if v.isEmpty then some none else (Double.read? v.toList).map (some ·.write)
  | none =>
    match Double.read? v.toList with
    | some x => some (some x.write)
    | none => some (some v)
  | some _ => none

/-- What a cell shows, as its children say; the last one counts. -/
def contentFrom? (strings : List String) (kind : Option String) (sofar : Option String) :
    List Xml → Option (Option String)
  | [] => some sofar
  | .element name _ children :: r => do
    let content ← match Xml.localPart name with
      | "is" => some (textOf? children)
      | "v" => value? strings kind (Xml.textAmong children)
      | "f" => some none
      | _ => none
    contentFrom? strings kind content r
  | _ :: r => contentFrom? strings kind sofar r

/-- A cell with a value. -/
structure Cell where
  place : Place
  text : String
  deriving DecidableEq, Repr

/-- The cells with values of a row. A cell that does not say where it is follows the one
before it. -/
def cellsFrom? (strings : List String) (next : Place) (done : List Cell) :
    List (List Xml.Attribute × List Xml) → Option (List Cell)
  | [] => some done.reverse
  | (attributes, children) :: r => do
    let place ← match Xml.valueOf? "r" attributes with
      | some s => place? s
      | none => some next
    let content ← contentFrom? strings (Xml.valueOf? "t" attributes) none children
    let done := match content with
      | some text => ⟨place, text⟩ :: done
      | none => done
    cellsFrom? strings ⟨next.row, place.column + 1⟩ done r

/-- The cells with values of all rows. -/
def rowsFrom? (strings : List String) (next : Nat) (done : List Cell) :
    List (List Xml.Attribute × List Xml) → Option (List Cell)
  | [] => some done
  | (attributes, children) :: r => do
    let row ← match Xml.valueOf? "r" attributes with
      | some s => (reference? s).map Prod.snd
      | none => some next
    let cells ← cellsFrom? strings ⟨row, 0⟩ [] (Xml.allNamed "c" children)
    rowsFrom? strings (row + 1) (done ++ cells) r

/-- The cells with values of a sheet. -/
def cells? (strings : List String) (sheet : Xml) : Option (List Cell) := do
  let (_, children) ← (Xml.named "sheetData" sheet).head?
  rowsFrom? strings 0 [] (Xml.allNamed "row" children)

/-! ## The preview -/

/-- What a place shows; the last cell that is put there counts. -/
def textAt (cells : List Cell) (p : Place) : String :=
  ((cells.reverse.find? (fun c => c.place == p)).map Cell.text).getD ""

/-- The least of some numbers. -/
def least : List Nat → Nat
  | [] => 0
  | n :: ns => ns.foldl min n

/-- The greatest of some numbers. -/
def greatest (ns : List Nat) : Nat :=
  ns.foldl max 0

/-- The first rows of the rectangle that the cells span. -/
def preview (rows : Nat) (cells : List Cell) : List (List String) :=
  if cells.isEmpty then []
  else
    let top := least (cells.map (·.place.row))
    let left := least (cells.map (·.place.column))
    let height := greatest (cells.map (·.place.row)) - top + 1
    let width := greatest (cells.map (·.place.column)) - left + 1
    (List.range (min rows height)).map fun i =>
      (List.range width).map fun j => textAt cells ⟨top + i, left + j⟩

/-- One row as a line. -/
def line (row : List String) : String :=
  ";".intercalate row ++ "\n"

/-! ## The package -/

/-- The document in a part, if there is such a part; a part that is no document is a
failure. -/
def optionalPart (a : Archive) (name : String) : Except Failure (Option Xml) :=
  match a.entryIgnoringCase? name with
  | none => .ok none
  | some e =>
    match (a.content? e).bind Xml.read? with
    | some x => .ok (some x)
    | none => .error .unreadable

/-- The document in a part that has to be there. -/
def requiredPart (a : Archive) (name : String) : Except Failure Xml := do
  match ← optionalPart a name with
  | some x => .ok x
  | none => .error .unreadable

/-- A value that has to be there. -/
def required {α : Type} : Option α → Except Failure α
  | some x => .ok x
  | none => .error .unreadable

/-- Where the part is that a relationship of the workbook points to. -/
def partName (target : String) : String :=
  if "/xl/".toList.isPrefixOf target.toList then withoutSlash target
  else if "xl/".toList.isPrefixOf target.toList then target
  else "xl/" ++ target

/-- The attribute of a sheet that names its relationship. -/
def linkNames : List String := ["r:id", "relationships:id"]

/-- The name of a sheet's part. -/
def sheetPart? (links : List Relationship) (attributes : List Xml.Attribute) : Option String :=
  match attributes.find? (fun a => linkNames.contains a.name) with
  | some a => (links.find? (·.id == a.value)).map fun l => partName l.target
  | none => some ""

/-- The names of the parts of all sheets. -/
def sheets (a : Archive) : Except Failure (List String) := do
  let links := Relationship.list (← requiredPart a "xl/_rels/workbook.xml.rels")
  match ← optionalPart a "xl/workbook.xml" with
  | none => .ok []
  | some book => required ((Xml.named "sheet" book).mapM fun s => sheetPart? links s.1)

/-- The first rows of the first sheet. -/
def extract (rows : Nat) (a : Archive) : Except Failure String := do
  let shared ← optionalPart a "xl/sharedStrings.xml"
  let strings := match shared with
    | some x => (Xml.named "si" x).filterMap fun s => textOf? s.2
    | none => []
  let _ ← optionalPart a "xl/styles.xml"
  match ← sheets a with
  | [] => .error .noSheets
  | first :: _ =>
    let sheet ← requiredPart a first
    let cells ← required (cells? strings sheet)
    .ok (String.join ((preview rows cells).map line))

end Intake.Office.Workbook
