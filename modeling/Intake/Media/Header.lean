import Intake.Text.Blank

/-!
# Media types in headers

A media type as it stands in a header: a kind and a subkind, then parameters after
semicolons. The value of a parameter is a word, or any text between double quotes. Letters
of the kinds, of the parameters' names and of the name of an encoding count as lower case;
all else of the text stays as it stands.
-/

namespace Intake.Media

/-- A media type with its parameters. -/
structure Header where
  main : String
  sub : String
  /-- In the order in which they stand. -/
  parameters : List (String × String)
  /-- The whole of it, with blanks and quotes where they stand. -/
  text : String
  deriving DecidableEq, Repr

namespace Header

/-- Holds of the characters of a word. -/
def isWord (c : Char) : Bool :=
  c.isAlphanum || "!#$%&'*+-.^_`|~".toList.contains c

/-- Holds of the characters that may stand in a quoted value. -/
def isQuotable (c : Char) : Bool :=
  31 < c.toNat && c.toNat != 127

/-- Holds of the characters that a header may hold to be read as text. -/
def isVisible (c : Char) : Bool :=
  c == '\t' || (32 ≤ c.toNat && c.toNat < 127)

/-- Where among the parameters a reader stands; what it has read of a part is in reverse. -/
inductive Spot where
  /-- Before a name. -/
  | start
  | name (n : List Char)
  /-- Before the value of a name. -/
  | value (n : List Char)
  | bare (n v : List Char)
  /-- After the quote in front of a value, which has one character at least. -/
  | opened (n : List Char)
  | quoted (n v : List Char)
  /-- After a quoted value. -/
  | after

/-- A parameter of the parts that were read. -/
def parameter (n v : List Char) : String × String :=
  (Text.lowerAscii (String.ofList n.reverse), String.ofList v.reverse)

/-- The name of the parameter whose value is the name of an encoding. -/
def charset : String := "charset"

/-- A character of the value of a parameter, as it counts. -/
def valueChar (n : List Char) (c : Char) : Char :=
  if Text.lowerAscii (String.ofList n.reverse) = charset then c.toLower else c

/-- What was read of the parameters, in reverse. -/
structure Reading where
  parameters : List (String × String) := []
  /-- Every character, as it counts. -/
  said : List Char := []

namespace Reading

/-- One more character was read. -/
def say (s : Reading) (c : Char) : Reading :=
  { s with said := c :: s.said }

/-- One more parameter was read. -/
def add (s : Reading) (p : String × String) : Reading :=
  { s with parameters := p :: s.parameters }

end Reading

/-- Reads on among the parameters. -/
def readParameters (s : Reading) : Spot → List Char → Option Reading
  | .start, [] => some s
  | .start, c :: r =>
    if c = ' ' then readParameters (s.say c) .start r
    else if isWord c then readParameters (s.say c.toLower) (.name [c]) r
    else none
  | .name _, [] => none
  | .name n, c :: r =>
    if c = '=' then readParameters (s.say c) (.value n) r
    else if isWord c then readParameters (s.say c.toLower) (.name (c :: n)) r
    else none
  | .value n, [] => some (s.add (parameter n []))
  | .value n, c :: r =>
    if c = '"' then readParameters (s.say c) (.opened n) r
    else if isWord c then readParameters (s.say (valueChar n c)) (.bare n [c]) r
    else none
  | .bare n v, [] => some (s.add (parameter n v))
  | .bare n v, c :: r =>
    if c = ';' then readParameters ((s.add (parameter n v)).say c) .start r
    else if isWord c then readParameters (s.say (valueChar n c)) (.bare n (c :: v)) r
    else none
  | .opened _, [] => none
  | .opened n, c :: r =>
    if isQuotable c then readParameters (s.say (valueChar n c)) (.quoted n [c]) r else none
  | .quoted _ _, [] => none
  | .quoted n v, c :: r =>
    if c = '"' then readParameters ((s.add (parameter n v)).say c) .after r
    else if isQuotable c then readParameters (s.say (valueChar n c)) (.quoted n (c :: v)) r
    else none
  | .after, [] => some s
  | .after, c :: r =>
    if c = ';' then readParameters (s.say c) .start r
    else if c = ' ' then readParameters (s.say c) .after r
    else none

/-- The media type of its parts. What follows the kinds is left out where it holds no
parameter. -/
def ofParts (main sub : List Char) (s : Reading) : Header :=
  let kinds := Text.lowerAscii (String.ofList main) ++ "/" ++ Text.lowerAscii (String.ofList sub)
  { main := Text.lowerAscii (String.ofList main)
    sub := Text.lowerAscii (String.ofList sub)
    parameters := s.parameters.reverse
    text :=
      if s.parameters.isEmpty then kinds else kinds ++ ";" ++ String.ofList s.said.reverse }

/-- Reads the characters of a media type. -/
def readChars? (cs : List Char) : Option Header :=
  let main := cs.takeWhile isWord
  match cs.dropWhile isWord with
  | '/' :: r =>
    let sub := r.takeWhile isWord
    if main.isEmpty then none
    else
      match r.dropWhile isWord with
      | [] => some (ofParts main sub {})
      | ';' :: r =>
        if sub.isEmpty then none else (readParameters {} .start r).map (ofParts main sub)
      | _ => none
  | _ => none

/-- Reads a media type. -/
def read? (s : String) : Option Header :=
  if s.toList.all isVisible then readChars? s.toList else none

/-- The value of the first parameter of a name in lower case. -/
def parameter? (h : Header) (name : String) : Option String :=
  (h.parameters.find? (·.1 == name)).map Prod.snd

/-- The subkind without the suffix after its last plus sign. -/
def stem (h : Header) : String :=
  match h.sub.toList.reverse.dropWhile (· != '+') with
  | _ :: r => if r.isEmpty then h.sub else String.ofList r.reverse
  | [] => h.sub

/-- Holds of forms in parts. -/
def isForm (h : Header) : Bool :=
  h.main == "multipart" && h.stem == "form-data"

end Header
end Intake.Media
