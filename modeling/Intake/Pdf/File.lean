import Intake.Archive.Inflate
import Intake.Pdf.Value

/-!
# Portable document files

A file holds numbered objects and, at its end, a table of where each object is. The
trailer after the table names the catalog, from which a tree leads to the pages. A page
takes what it lacks from the nodes above it.
-/

namespace Intake.Pdf

/-- A file and where its objects are. -/
structure File where
  chars : List Char
  /-- The places of the objects, by number; the first of a number counts. -/
  table : List (Nat × Nat)
  trailer : Value

namespace File

/-! ## The table of objects -/

/-- The characters after the last occurrence of a mark. -/
def afterLast (mark : List Char) (found : Option (List Char)) : List Char → Option (List Char)
  | [] => found
  | c :: r =>
    afterLast mark (if mark.isPrefixOf (c :: r) then some ((c :: r).drop mark.length) else found) r

/-- Reads `n` table entries, of which the first has the number `i`: the place, the
generation, and whether the object is in use. -/
def entries? (i : Nat) : (n : Nat) → List Char → Option (List (Nat × Nat) × List Char)
  | 0, cs => some ([], cs)
  | n + 1, cs =>
    match row? cs with
    | some ([place, _], mark, rest) => do
      let place ← place.natural?
      let (entries, rest) ← entries? (i + 1) n rest
      if mark = "n" then some ((i, place) :: entries, rest)
      else if mark = "f" then some (entries, rest)
      else none
    | _ => none

/-- Reads two whole numbers. -/
def pair? (cs : List Char) : Option (Nat × Nat × List Char) :=
  match token? cs with
  | some (.value a, rest) =>
    match token? rest with
    | some (.value b, rest) => do some (← a.natural?, ← b.natural?, rest)
    | _ => none
  | _ => none

/-- Reads the sections of the table up to the trailer. Each section takes a character of
`fuel`. -/
def sections? : (fuel : Nat) → List (Nat × Nat) → List Char → Option (List (Nat × Nat) × List Char)
  | 0, _, _ => none
  | fuel + 1, done, cs =>
    match token? cs with
    | some (.word w, rest) => if w = "trailer" then some (done, rest) else none
    | _ => do
      let (first, count, rest) ← pair? cs
      let (entries, rest) ← entries? first count rest
      sections? fuel (done ++ entries) rest

/-- Reads one dictionary, of which a word or nothing may follow. -/
def dictionary? (cs : List Char) : Option Value :=
  match row? (cs ++ "\nend".toList) with
  | some (v :: _, _, _) =>
    match v with
    | .dictionary _ => some v
    | _ => none
  | _ => none

/-- Reads the frame of a file: the place of the table stands after the last mark at its
end. -/
def read? (bs : Bytes) : Option File :=
  let cs := charsOf bs
  if "%PDF-".toList.isPrefixOf cs then do
    let tail ← afterLast "startxref".toList none cs
    let place ← match token? tail with
      | some (.value v, _) => v.natural?
      | _ => none
    match token? (cs.drop place) with
    | some (.word w, rest) =>
      if w = "xref" then
        let (table, rest) ← sections? (rest.length + 1) [] rest
        some { chars := cs, table, trailer := ← dictionary? rest }
      else none
    | _ => none
  else none

/-! ## Objects -/

/-- A stored object: a value, and the bytes after it if it is the head of a stream. -/
structure Stored where
  value : Value
  stream : Option (List Char)

/-- The characters after the line end behind the word `stream`. -/
def streamStart (cs : List Char) : List Char :=
  match cs with
  | '\r' :: '\n' :: r => r
  | '\n' :: r => r
  | r => r

/-- The object at a place; `length` gives the length of a stream. -/
def objectAt? (f : File) (length : Value → Option Nat) (n place : Nat) : Option Stored :=
  match row? (f.chars.drop place) with
  | some ([number, _], "obj", rest) =>
    if number.natural? = some n then
      match row? rest with
      | some ([v], "endobj", _) => some ⟨v, none⟩
      | some ([v], "stream", rest) => do
        let size ← length (← v.member? "Length")
        some ⟨v, some ((streamStart rest).take size)⟩
      | _ => none
    else none
  | _ => none

/-- The object of a number, where the lengths of streams stand in the streams. -/
def plainObject? (f : File) (n : Nat) : Option Stored := do
  let (_, place) ← f.table.find? (·.1 == n)
  f.objectAt? Value.natural? n place

/-- The length of a stream, which may stand in an object of its own. -/
def length? (f : File) (v : Value) : Option Nat :=
  match v with
  | .reference n => (f.plainObject? n).bind (·.value.natural?)
  | v => v.natural?

/-- The object of a number. -/
def object? (f : File) (n : Nat) : Option Stored := do
  let (_, place) ← f.table.find? (·.1 == n)
  f.objectAt? f.length? n place

/-- What a value stands for, through at most `fuel` references. -/
def resolveFrom (f : File) : (fuel : Nat) → Value → Option Stored
  | 0, _ => none
  | fuel + 1, .reference n =>
    match f.object? n with
    | some ⟨.reference m, _⟩ => resolveFrom f fuel (.reference m)
    | other => other
  | _, v => some ⟨v, none⟩

/-- What a value stands for. -/
def resolve? (f : File) (v : Value) : Option Stored :=
  f.resolveFrom (f.table.length + 1) v

/-- The value that a value stands for. -/
def value? (f : File) (v : Value) : Option Value :=
  (f.resolve? v).map Stored.value

/-- What a member of a dictionary stands for. -/
def member? (f : File) (key : String) (v : Value) : Option Value :=
  (v.member? key).bind f.value?

/-! ## Pages -/

/-- The pages below a node of the page tree, each with the nodes above it, the nearest
first. A node counts once on each way down, so the number of objects bounds the depth. -/
def pagesBelow (f : File) (above : List Value) : (depth : Nat) → Value → List (List Value)
  | 0, _ => []
  | depth + 1, node =>
    match f.member? "Type" node with
    | some (.name "Page") => [node :: above]
    | some (.name "Pages") =>
      let kids := ((f.member? "Kids" node).bind Value.items?).getD []
      (kids.filterMap f.value?).flatMap (pagesBelow f (node :: above) depth)
    | _ => []

/-- The pages in their order. -/
def pages (f : File) : List (List Value) :=
  match (f.member? "Root" f.trailer).bind (f.member? "Pages") with
  | some root => f.pagesBelow [] (f.table.length + 1) root
  | none => []

/-- A member of a page, or of the nearest node above that has it. -/
def inherited? (f : File) (key : String) : List Value → Option Value
  | [] => none
  | node :: above =>
    match f.member? key node with
    | some v => some v
    | none => f.inherited? key above

/-! ## Streams -/

/-- The bytes of a stream, decompressed if its filter says so. -/
def unpack (s : Stored) : List Char :=
  let packed := s.stream.getD []
  let deflated := match s.value.member? "Filter" with
    | some (.name n) => n == "FlateDecode"
    | some (.array [.name n]) => n == "FlateDecode"
    | _ => false
  if deflated then
    let bs : Bytes := packed.map fun c => UInt8.ofNat c.toNat
    charsOf ((Archive.Inflate.inflate? (bs.drop 2)).getD [])
  else packed

/-- What a page shows: one stream, or several one after the other. -/
def content (f : File) (page : Value) : List Char :=
  match page.member? "Contents" with
  | none => []
  | some v =>
    match f.resolve? v with
    | some ⟨.array items, _⟩ =>
      (items.filterMap f.resolve?).flatMap fun s => unpack s ++ ['\n']
    | some s => unpack s
    | none => []

end File
end Intake.Pdf
