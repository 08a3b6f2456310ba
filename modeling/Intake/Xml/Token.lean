import Intake.Text.Digits
import Intake.Text.Utf8

/-!
# XML tokens

A document as a row of tags and texts. Comments, processing instructions and the
document type say nothing and are skipped. References are replaced by their characters;
one that is not known makes the document unreadable, as does anything else that is no
XML. All line ends are read as line feeds.
-/

namespace Intake.Xml

/-- A name and a value. -/
structure Attribute where
  name : String
  value : String
  deriving DecidableEq, Repr

/-- One piece of a document. -/
inductive Token where
  | opening (name : String) (attributes : List Attribute)
  | closing (name : String)
  | text (s : String)
  /-- Characters in which no mark-up is looked for. -/
  | raw (s : String)
  deriving DecidableEq, Repr

namespace Token

/-! ## Characters -/

/-- The white space of mark-up. -/
def isSpace (c : Char) : Bool :=
  c = ' ' || c = '\t' || c = '\n' || c = '\r'

/-- Holds of the characters that may stand in a document. -/
def isAllowed (c : Char) : Bool :=
  isSpace c || (0x20 ≤ c.toNat && c.toNat ≤ 0xD7FF)
    || (0xE000 ≤ c.toNat && c.toNat ≤ 0xFFFD) || 0x10000 ≤ c.toNat

/-- Holds of the characters that begin a name. -/
def beginsName (c : Char) : Bool :=
  c.isAlpha || c = '_' || c = ':' || 0xC0 ≤ c.toNat

/-- Holds of the characters of a name. -/
def isNameChar (c : Char) : Bool :=
  beginsName c || c.isDigit || c = '-' || c = '.' || c.toNat = 0xB7

/-- Reads every line end as a line feed; the characters so far stand in reverse. -/
def unifyFrom (done : List Char) : List Char → List Char
  | [] => done.reverse
  | '\r' :: '\n' :: r => unifyFrom ('\n' :: done) r
  | '\r' :: r => unifyFrom ('\n' :: done) r
  | c :: r => unifyFrom (c :: done) r

/-- Reads every line end as a line feed. -/
def unifyLineEnds (cs : List Char) : List Char :=
  unifyFrom [] cs

/-! ## References -/

/-- The character of a number, if it may stand in a document. -/
def charOf? (n : Nat) : Option Char :=
  if h : n.isValidChar then
    let c := Char.ofNatAux n h
    if isAllowed c then some c else none
  else none

/-- The character that a reference names. -/
def reference? (name : List Char) : Option Char :=
  match name with
  | '#' :: 'x' :: ds => (Text.hexadecimal? ds).bind charOf?
  | '#' :: ds => (Text.decimal? ds).bind charOf?
  | _ =>
    if name == "amp".toList then some '&'
    else if name == "lt".toList then some '<'
    else if name == "gt".toList then some '>'
    else if name == "quot".toList then some '"'
    else if name == "apos".toList then some '\''
    else none

/-- Replaces the references of a text: `name` is the reference being read, in reverse,
and `done` what was read before it, in reverse. -/
def resolveFrom (name : Option (List Char)) (done : List Char) :
    List Char → Option (List Char)
  | [] => if name.isNone then some done.reverse else none
  | c :: r =>
    match name with
    | some n =>
      if c = ';' then
        match reference? n.reverse with
        | some d => resolveFrom none (d :: done) r
        | none => none
      else resolveFrom (some (c :: n)) done r
    | none => if c = '&' then resolveFrom (some []) done r else resolveFrom none (c :: done) r

/-- Replaces the references of a text. -/
def resolve? (cs : List Char) : Option String :=
  (resolveFrom none [] cs).map String.ofList

/-! ## Pieces -/

/-- Reads up to a mark and past it, with the characters before it in reverse. -/
def untilFrom (mark : List Char) (done : List Char) :
    List Char → Option (List Char × List Char)
  | [] => none
  | c :: r =>
    if mark.isPrefixOf (c :: r) then some (done.reverse, (c :: r).drop mark.length)
    else untilFrom mark (c :: done) r

/-- The characters before a mark and those after it. -/
def until? (mark : String) (cs : List Char) : Option (List Char × List Char) :=
  untilFrom mark.toList [] cs

/-- A name and what follows it. -/
def name? (cs : List Char) : Option (String × List Char) :=
  match cs with
  | c :: _ =>
    if beginsName c then some (String.ofList (cs.takeWhile isNameChar), cs.dropWhile isNameChar)
    else none
  | [] => none

/-- An attribute and what follows it. -/
def attribute? (cs : List Char) : Option (Attribute × List Char) := do
  let (name, rest) ← name? cs
  match rest.dropWhile isSpace with
  | '=' :: rest =>
    match rest.dropWhile isSpace with
    | quote :: rest =>
      if quote = '"' || quote = '\'' then
        let (value, rest) ← untilFrom [quote] [] rest
        if value.contains '<' then none
        else
          let spaced := value.map fun c => if isSpace c then ' ' else c
          some (⟨name, ← resolve? spaced⟩, rest)
      else none
    | [] => none
  | _ => none

/-- The rest of an opening tag: its attributes, whether it closes itself, and what
follows it. Each attribute takes at least one character of `fuel`. -/
def attributes? : (fuel : Nat) → List Attribute → List Char →
    Option (List Attribute × Bool × List Char)
  | 0, _, _ => none
  | fuel + 1, done, cs =>
    let rest := cs.dropWhile isSpace
    match rest with
    | '>' :: r => some (done.reverse, false, r)
    | '/' :: '>' :: r => some (done.reverse, true, r)
    | _ =>
      if rest.length < cs.length then
        match attribute? rest with
        | some (a, r) =>
          if done.any (·.name == a.name) then none else attributes? fuel (a :: done) r
        | none => none
      else none

/-- Reads past a document type: up to its closing bracket, a part in square brackets
included. -/
def skipDoctype (depth : Nat) : List Char → Option (List Char)
  | [] => none
  | '[' :: r => skipDoctype (depth + 1) r
  | ']' :: r => skipDoctype (depth - 1) r
  | '>' :: r => if depth = 0 then some r else skipDoctype depth r
  | _ :: r => skipDoctype depth r

/-- What a tag says, given the characters after its opening bracket. -/
def tag? (cs : List Char) : Option (List Token × List Char) :=
  match cs with
  | '/' :: r => do
    let (name, rest) ← name? r
    match rest.dropWhile isSpace with
    | '>' :: rest => some ([.closing name], rest)
    | _ => none
  | '?' :: r => (until? "?>" r).map fun (_, rest) => ([], rest)
  | '!' :: '-' :: '-' :: r => (until? "-->" r).map fun (_, rest) => ([], rest)
  | '!' :: r =>
    if "[CDATA[".toList.isPrefixOf r then
      (until? "]]>" (r.drop 7)).map fun (content, rest) => ([.raw (String.ofList content)], rest)
    else if "DOCTYPE".toList.isPrefixOf r then (skipDoctype 0 r).map fun rest => ([], rest)
    else none
  | _ => do
    let (name, rest) ← name? cs
    let (attributes, closed, rest) ← attributes? (cs.length + 1) [] rest
    let opening := opening name attributes
    some (if closed then [opening, .closing name] else [opening], rest)

/-- Reads on, with the tokens so far in reverse. Each step takes at least one character
of `fuel`. -/
def tokensFrom? : (fuel : Nat) → List Token → List Char → Option (List Token)
  | _, done, [] => some done.reverse
  | 0, _, _ :: _ => none
  | fuel + 1, done, c :: r =>
    if c = '<' then
      match tag? r with
      | some (ts, rest) => tokensFrom? fuel (ts.reverse ++ done) rest
      | none => none
    else
      let content := (c :: r).takeWhile (· != '<')
      match resolve? content with
      | some s => tokensFrom? fuel (.text s :: done) (r.dropWhile (· != '<'))
      | none => none

/-- The tokens of a document. -/
def ofChars? (cs : List Char) : Option (List Token) :=
  let cs := match cs with
    | '\uFEFF' :: r => r
    | _ => cs
  if cs.all isAllowed then
    let cs := unifyLineEnds cs
    tokensFrom? (cs.length + 1) [] cs
  else none

end Token
end Intake.Xml
