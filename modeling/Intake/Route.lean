import Intake.Delimited
import Intake.Media.Sniff
import Intake.Office
import Intake.Pdf
import Intake.Text.Quoted

/-!
# Routes to extractors

An extractor gets the text out of a file. Which one is asked is said by a table of
routes, each a test and an extractor: the first route whose test accepts the file wins.
A test sees the file's name, its declared type and its detected type. The standard
table knows office files, portable documents, delimited tables and plain text.
-/

namespace Intake

/-- Something that gets the text out of a file. -/
structure Extractor where
  name : String
  /-- The gate that has to be open before it goes on. -/
  gate : Option String := none
  extract : Bytes → Conduct (Except ExtractionError String)

namespace Extractor

/-- An extractor that always comes to an end. -/
def total (name : String) (extract : Bytes → Except ExtractionError String) : Extractor :=
  { name, extract := fun content => .returned (extract content) }

def text : Extractor := total "text" PlainText.extract

/-- All records of a table. -/
def delimited : Extractor := total "delimited" (Delimited.extract none)

/-- The first records of a table. -/
def delimitedPreview (rows : Nat) : Extractor :=
  total "delimited-preview" (Delimited.extract (some rows))

/-- Office files; of a sheet the first rows. -/
def office (rows : Nat) : Extractor := total "office" (Office.extract rows)

def pdf : Extractor := total "pdf" Pdf.extract

end Extractor

/-- What a route sees of a file. -/
structure Probe where
  fileName : String
  declared : Option String
  detected : String
  deriving DecidableEq, Repr

namespace Probe

/-- The last component of a path, unless it leads upwards. -/
def lastComponent? (path : String) : Option (List Char) :=
  let parts := (Text.splitAt '/' path.toList).filter (fun p => p != [] && p != ['.'])
  match parts.getLast? with
  | some p => if p == ['.', '.'] then none else some p
  | none => none

/-- What stands after the last period of a file name, unless nothing stands before it. -/
def extensionOf? (name : List Char) : Option (List Char) :=
  match Text.splitAt '.' name with
  | [_] => none
  | [[], _] => none
  | parts => parts.getLast?

/-- The extension of the file's name, in lower case. -/
def extension? (p : Probe) : Option String :=
  ((lastComponent? p.fileName).bind extensionOf?).map fun e =>
    Text.lowerAscii (String.ofList e)

/-- The declared type without its parameters. -/
def declaredEssence? (p : Probe) : Option String :=
  p.declared.map Media.essence

end Probe

/-- A test and the extractor for the files that pass it. -/
structure Route where
  test : Probe → Conduct Bool
  extractor : Extractor

namespace Route

/-- A route with a test that always comes to an end. -/
def when (test : Probe → Bool) (extractor : Extractor) : Route :=
  { test := fun p => .returned (test p), extractor }

/-- Zip containers that are said to be office files in one of three ways. -/
def isOffice (p : Probe) : Bool :=
  Media.isZipContainer p.detected
    && (Media.isOoxml p.detected
      || p.declaredEssence? == some Media.docx || p.declaredEssence? == some Media.xlsx
      || p.extension? == some "docx" || p.extension? == some "xlsx")

def isPdf (p : Probe) : Bool :=
  Media.isPdf p.detected

/-- Files that are declared to be tables. -/
def isDeclaredTable (p : Probe) : Bool :=
  p.declaredEssence? == some "text/csv"

/-- Texts that are named like tables. -/
def isNamedTable (p : Probe) : Bool :=
  Media.isText p.detected && (p.extension? == some "csv" || p.extension? == some "tsv")

def isText (p : Probe) : Bool :=
  Media.isText p.detected

end Route

/-- Routes in order of precedence. -/
structure ExtractorTable where
  routes : List Route := []

namespace ExtractorTable

/-- The standard routes; previews keep the given number of rows. -/
def standardRoutes (rows : Nat) : List Route := [
  .when Route.isOffice (.office rows),
  .when Route.isPdf .pdf,
  .when Route.isDeclaredTable .delimited,
  .when Route.isNamedTable (.delimitedPreview rows),
  .when Route.isText .text]

/-- The standard table. -/
def standard (rows : Nat) : ExtractorTable :=
  { routes := standardRoutes rows }

/-- The number of routes. -/
def size (t : ExtractorTable) : Nat :=
  t.routes.length

/-- The names of the extractors in order. -/
def names (t : ExtractorTable) : List String :=
  t.routes.map (·.extractor.name)

/-- The names of the extractors for a reader. -/
def listing (t : ExtractorTable) : String :=
  Text.quotedList t.names

/-- The extractor of the first route whose test accepts. -/
def routeAmong (p : Probe) : List Route → Conduct (Option Extractor)
  | [] => .returned none
  | r :: rs =>
    match r.test p with
    | .returned true => .returned (some r.extractor)
    | .returned false => routeAmong p rs
    | .panicked note => .panicked note

/-- The extractor for a file, if there is one. -/
def route (t : ExtractorTable) (p : Probe) : Conduct (Option Extractor) :=
  routeAmong p t.routes

end ExtractorTable
end Intake
