import Intake.Office.Package

/-!
# Word-processing documents

The text of a document: a line for each paragraph, and a line for each row of a table
with ` | ` between the cells. Of a paragraph the runs count, also those in hyperlinks;
of a run the texts and the tabs. Insertions, deletions, content controls and drawings add
nothing. An element that is none of those named is looked into for the ones that are.
-/

namespace Intake.Office.Document

/-- The type of the relationship that names the main part. -/
def mainKind : String :=
  "http://schemas.openxmlformats.org/officeDocument/2006/relationships/officeDocument"

/-- The main part where no relationship names one. -/
def mainDefault : String := "word/document.xml"

mutual

/-- What a node inside a run adds. -/
def ofRunPart : Xml → String
  | .element name _ children =>
    match Xml.localPart name with
    | "t" => (Xml.textAmong children).toList.filter (· != '\n') |> String.ofList
    | "tab" => "\t"
    | "rPr" | "drawing" | "pict" | "Fallback" | "instrText" | "delText" | "delInstrText" => ""
    | _ => ofRunParts children
  | _ => ""

/-- What the nodes inside a run add. -/
def ofRunParts : List Xml → String
  | [] => ""
  | x :: xs => ofRunPart x ++ ofRunParts xs

end

mutual

/-- What a node inside a hyperlink adds. -/
def ofLinkPart : Xml → String
  | .element name _ children =>
    match Xml.localPart name with
    | "r" => ofRunParts children
    | "ins" | "del" | "sdt" => ""
    | _ => ofLinkParts children
  | _ => ""

/-- What the nodes inside a hyperlink add. -/
def ofLinkParts : List Xml → String
  | [] => ""
  | x :: xs => ofLinkPart x ++ ofLinkParts xs

end

mutual

/-- What a node inside a paragraph adds. -/
def ofParagraphPart : Xml → String
  | .element name _ children =>
    match Xml.localPart name with
    | "r" => ofRunParts children
    | "hyperlink" => ofLinkParts children
    | "ins" | "del" | "sdt" | "pPr" => ""
    | _ => ofParagraphParts children
  | _ => ""

/-- What the nodes inside a paragraph add. -/
def ofParagraphParts : List Xml → String
  | [] => ""
  | x :: xs => ofParagraphPart x ++ ofParagraphParts xs

end

mutual

/-- What a node inside a table cell adds. -/
def ofCellPart : Xml → String
  | .element name _ children =>
    match Xml.localPart name with
    | "p" => ofParagraphParts children
    | "tbl" | "sdt" | "tcPr" => ""
    | _ => ofCellParts children
  | _ => ""

/-- What the nodes inside a table cell add. -/
def ofCellParts : List Xml → String
  | [] => ""
  | x :: xs => ofCellPart x ++ ofCellParts xs

end

mutual

/-- The cells of a node inside a table row. -/
def cellsOfRowPart : Xml → List String
  | .element name _ children =>
    match Xml.localPart name with
    | "tc" => [ofCellParts children]
    | "trPr" => []
    | _ => cellsOfRowParts children
  | _ => []

/-- The cells of the nodes inside a table row. -/
def cellsOfRowParts : List Xml → List String
  | [] => []
  | x :: xs => cellsOfRowPart x ++ cellsOfRowParts xs

end

mutual

/-- The rows of a node inside a table. -/
def rowsOfTablePart : Xml → List (List String)
  | .element name _ children =>
    match Xml.localPart name with
    | "tr" => [cellsOfRowParts children]
    | "tblPr" | "tblGrid" => []
    | _ => rowsOfTableParts children
  | _ => []

/-- The rows of the nodes inside a table. -/
def rowsOfTableParts : List Xml → List (List String)
  | [] => []
  | x :: xs => rowsOfTablePart x ++ rowsOfTableParts xs

end

/-- One row of a table as a line. -/
def rowLine (cells : List String) : String :=
  " | ".intercalate cells ++ "\n"

mutual

/-- The lines of a node of the main part. -/
def ofNode : Xml → String
  | .element name _ children =>
    match Xml.localPart name with
    | "p" => ofParagraphParts children ++ "\n"
    | "tbl" => String.join ((rowsOfTableParts children).map rowLine)
    | "sdt" | "sectPr" => ""
    | _ => ofNodes children
  | _ => ""

/-- The lines of some nodes of the main part. -/
def ofNodes : List Xml → String
  | [] => ""
  | x :: xs => ofNode x ++ ofNodes xs

end

/-- The text of a package, if it has the parts of a document. -/
def extract? (a : Archive) : Option String := do
  let _ ← Xml.readQualified? (← part? a "[Content_Types].xml")
  let links ← Xml.readQualified? (← part? a "_rels/.rels")
  let main := ((Relationship.list links).find? (·.kind == mainKind)).map Relationship.target
  let path := main.getD mainDefault
  let _ ← Xml.readQualified? (← part? a (relationshipsName path))
  let document ← Xml.readQualified? (← part? a path)
  some (Text.tidyLines (ofNode document))

end Intake.Office.Document
