import Intake.Toml.Scalar

/-!
# Reading TOML

A text is a sequence of lines: empty, a header in single or double brackets, or a key
with its value. `read?` gives the root table, or nothing if a line is malformed, a key
is given twice, or a header or a dotted key adds to a table that is closed to it.
-/

namespace Intake.Toml

/-- The deepest nesting of arrays and inline tables. -/
def depthLimit : Nat := 80

/-- Drops a comment up to the end of its line, if one starts here. -/
def skipComment : List Char → Option (List Char)
  | '#' :: r =>
    let rest := r.dropWhile isShown
    match rest with
    | [] => some []
    | _ => if (newline? rest).isSome then some rest else none
  | cs => some cs

/-- The end of a line: blanks, a comment, and a line end or the end of the text. -/
def lineEnd (cs : List Char) : Option (List Char) := do
  let cs ← skipComment (skipSpace cs)
  match cs with
  | [] => some []
  | _ => newline? cs

/-- Drops blanks, comments and line ends inside an array. -/
def skipLayout : (fuel : Nat) → List Char → Option (List Char)
  | 0, _ => none
  | fuel + 1, cs =>
    match cs with
    | ' ' :: r => skipLayout fuel r
    | '\t' :: r => skipLayout fuel r
    | '\n' :: r => skipLayout fuel r
    | '\r' :: '\n' :: r => skipLayout fuel r
    | '#' :: r =>
      match skipComment ('#' :: r) with
      | some r' => skipLayout fuel r'
      | none => none
    | r => some r

/-- Holds of the characters of a bare key. -/
def isBare (c : Char) : Bool :=
  isDecimal c || ('a' ≤ c && c ≤ 'z') || ('A' ≤ c && c ≤ 'Z') || c = '_' || c = '-'

/-- One part of a key. -/
def keyPart (cs : List Char) : Option (String × List Char) :=
  match cs with
  | '"' :: r => basicFrom [] (r.length + 1) r
  | '\'' :: r => literalFrom [] r
  | _ =>
    let w := cs.takeWhile isBare
    if w.isEmpty then none else some (String.ofList w, cs.dropWhile isBare)

/-- The parts of a dotted key: those before the last, and the last. -/
def key : (fuel : Nat) → List Char → Option ((List String × String) × List Char)
  | 0, _ => none
  | fuel + 1, cs => do
    let (part, r) ← keyPart (skipSpace cs)
    let r := skipSpace r
    match r with
    | '.' :: r' =>
      let ((parts, last), rest) ← key fuel r'
      some ((part :: parts, last), rest)
    | _ => some (([], part), r)

mutual

/-- A value; `depth` counts the arrays and inline tables that may still be opened. -/
def value (depth : Nat) : (fuel : Nat) → List Char → Option (Toml × List Char)
  | 0, _ => none
  | fuel + 1, cs =>
    match cs with
    | '"' :: _ => (stringValue cs).map (fun (s, r) => (.string s, r))
    | '\'' :: _ => (stringValue cs).map (fun (s, r) => (.string s, r))
    | '[' :: r => if depth == 0 then none else items (depth - 1) fuel [] r
    | '\x7b' :: r =>
      if depth == 0 then none
      else
        match skipSpace r with
        | '\x7d' :: r' => some (.table .inlined [], r')
        | r' => inlineEntries (depth - 1) fuel [] r'
    | _ => wordValue cs

/-- The items of an array up to its end, with those so far in reverse. -/
def items (depth : Nat) : (fuel : Nat) → List Toml → List Char → Option (Toml × List Char)
  | 0, _, _ => none
  | fuel + 1, done, cs =>
    match skipLayout (cs.length + 1) cs with
    | none => none
    | some (']' :: r) => some (.array done.reverse, r)
    | some r =>
      match value depth fuel r with
      | none => none
      | some (v, r) =>
        match skipLayout (r.length + 1) r with
        | some (',' :: r') => items depth fuel (v :: done) r'
        | some (']' :: r') => some (.array (v :: done).reverse, r')
        | _ => none

/-- The entries of an inline table up to its end. -/
def inlineEntries (depth : Nat) : (fuel : Nat) → Entries → List Char → Option (Toml × List Char)
  | 0, _, _ => none
  | fuel + 1, entries, cs =>
    match key (cs.length + 1) cs with
    | some ((path, last), '=' :: r) =>
      match value depth fuel (skipSpace r) with
      | none => none
      | some (v, r) =>
        match putDotted entries path last v with
        | none => none
        | some entries' =>
          match skipSpace r with
          | ',' :: r' => inlineEntries depth fuel entries' r'
          | '\x7d' :: r' => some (.table .inlined entries', r')
          | _ => none
    | _ => none

end

/-- A key with its value. -/
def assignment (cs : List Char) : Option ((List String × String × Toml) × List Char) := do
  let ((path, last), r) ← key (cs.length + 1) cs
  match r with
  | '=' :: r =>
    let (v, rest) ← value depthLimit (2 * r.length + 2) (skipSpace r)
    some ((path, last, v), rest)
  | _ => none

/-- Adds an assignment to the table that the last header opened. -/
def putCurrent (root : Entries) (header : List String) (path : List String) (last : String)
    (v : Toml) : Option Entries :=
  withinHeader root header (fun es => putDotted es path last v)

/-- Reads line by line, with the root table and the path of the current header. -/
def lines : (fuel : Nat) → Entries → List String → List Char → Option Entries
  | 0, _, _, _ => none
  | fuel + 1, root, header, cs =>
    match skipSpace cs with
    | [] => some root
    | '#' :: r => do lines fuel root header (← lineEnd ('#' :: r))
    | '\n' :: r => lines fuel root header r
    | '\r' :: '\n' :: r => lines fuel root header r
    | '[' :: '[' :: r =>
      match key (r.length + 1) r with
      | some ((path, last), ']' :: ']' :: rest) => do
        let root' ← openElement root path last
        lines fuel root' (path ++ [last]) (← lineEnd rest)
      | _ => none
    | '[' :: r =>
      match key (r.length + 1) r with
      | some ((path, last), ']' :: rest) => do
        let root' ← openTable root path last
        lines fuel root' (path ++ [last]) (← lineEnd rest)
      | _ => none
    | r => do
      let ((path, last, v), rest) ← assignment r
      let root' ← putCurrent root header path last v
      lines fuel root' header (← lineEnd rest)

/-- The root table of a text; a byte-order mark in front is dropped. -/
def read? (s : String) : Option Entries :=
  let cs := s.toList
  let cs := match cs with
    | '\uFEFF' :: r => r
    | r => r
  lines (cs.length + 1) [] [] cs

end Intake.Toml
