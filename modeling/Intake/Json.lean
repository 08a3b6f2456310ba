import Intake.Text.Digits

/-!
# JSON

Values as they stand in a text: the members of an object keep their order and may
repeat, numbers keep their digits, and a string whose escapes name half of a
surrogate pair has no content. `Json.read?` accepts exactly one value between blanks.
-/

namespace Intake

/-- A JSON value. -/
inductive Json where
  | null
  | bool (b : Bool)
  /-- A number, as written. -/
  | number (digits : List Char)
  /-- A string; `none` if it holds half of a surrogate pair. -/
  | string (content : Option String)
  | array (items : List Json)
  | object (members : List (Option String × Json))
  deriving Repr

namespace Json

/-! ## Writing strings -/

/-- One character inside a string: quotes, backslashes and controls are escaped. -/
def escapeChar (c : Char) : List Char :=
  if c = '"' then ['\\', '"']
  else if c = '\\' then ['\\', '\\']
  else if c = '\n' then ['\\', 'n']
  else if c = '\r' then ['\\', 'r']
  else if c = '\t' then ['\\', 't']
  else if c.toNat = 8 then ['\\', 'b']
  else if c.toNat = 12 then ['\\', 'f']
  else if c.toNat < 32 then ['\\', 'u'] ++ Text.hexPadded 4 c.toNat
  else [c]

/-- A string between its quotes. -/
def writeString (s : String) : List Char :=
  '"' :: (s.toList.flatMap escapeChar ++ ['"'])

/-! ## Reading strings -/

/-- The text of a list of UTF-16 units in which single units may also be whole
characters; `none` if half of a surrogate pair stands alone. -/
def joinUnits (done : List Char) : List Nat → Option String
  | [] => some (String.ofList done.reverse)
  | u :: r =>
    if 0xD800 ≤ u && u < 0xDC00 then
      match r with
      | v :: r' =>
        if 0xDC00 ≤ v && v < 0xE000 then
          joinUnits (Char.ofNat (0x10000 + (u - 0xD800) * 1024 + (v - 0xDC00)) :: done) r'
        else none
      | [] => none
    else if 0xDC00 ≤ u && u < 0xE000 then none
    else joinUnits (Char.ofNat u :: done) r

/-- The character that a one-letter escape stands for. -/
def escaped? (c : Char) : Option Nat :=
  match c with
  | '"' => some 34
  | '\\' => some 92
  | '/' => some 47
  | 'b' => some 8
  | 'f' => some 12
  | 'n' => some 10
  | 'r' => some 13
  | 't' => some 9
  | _ => none

/-- Reads on to the closing quote, with the units so far in reverse. -/
def stringFrom (units : List Nat) : List Char → Option (Option String × List Char)
  | [] => none
  | '"' :: r => some (joinUnits [] units.reverse, r)
  | '\\' :: 'u' :: a :: b :: c :: d :: r =>
    match Text.hexadecimal? [a, b, c, d] with
    | some n => stringFrom (n :: units) r
    | none => none
  | '\\' :: e :: r =>
    match escaped? e with
    | some n => stringFrom (n :: units) r
    | none => none
  | c :: r => if c.toNat < 32 || c = '\\' then none else stringFrom (c.toNat :: units) r

/-! ## Reading values -/

/-- The blanks between tokens. -/
def isSpace (c : Char) : Bool :=
  c = ' ' || c = '\n' || c = '\t' || c = '\r'

/-- Drops the blanks at the front. -/
def skip (cs : List Char) : List Char :=
  cs.dropWhile isSpace

/-- Holds of the decimal digits. -/
def isDigit (c : Char) : Bool :=
  '0' ≤ c && c ≤ '9'

/-- The digits of a number before any fraction: a lone zero, or no leading zero. -/
def integerPart : List Char → Option (List Char × List Char)
  | '0' :: r => if (r.head?.map isDigit).getD false then none else some (['0'], r)
  | cs =>
    let ds := cs.takeWhile isDigit
    if ds.isEmpty then none else some (ds, cs.dropWhile isDigit)

/-- The fraction of a number, if there is one. -/
def fractionPart : List Char → Option (List Char × List Char)
  | '.' :: r =>
    let ds := r.takeWhile isDigit
    if ds.isEmpty then none else some ('.' :: ds, r.dropWhile isDigit)
  | cs => some ([], cs)

/-- The exponent of a number, if there is one. -/
def exponentPart (cs : List Char) : Option (List Char × List Char) :=
  match cs with
  | e :: r =>
    if e = 'e' || e = 'E' then
      let (sign, r) := match r with
        | '+' :: t => (['+'], t)
        | '-' :: t => (['-'], t)
        | t => ([], t)
      let ds := r.takeWhile isDigit
      if ds.isEmpty then none else some (e :: sign ++ ds, r.dropWhile isDigit)
    else some ([], cs)
  | [] => some ([], [])

/-- A number without its sign. -/
def unsignedNumber (cs : List Char) : Option (List Char × List Char) := do
  let (a, cs) ← integerPart cs
  let (b, cs) ← fractionPart cs
  let (c, cs) ← exponentPart cs
  some (a ++ b ++ c, cs)

mutual

/-- A value at the front of a text without leading blanks, and what follows it. -/
def value : (fuel : Nat) → List Char → Option (Json × List Char)
  | 0, _ => none
  | fuel + 1, cs =>
    match cs with
    | 'n' :: 'u' :: 'l' :: 'l' :: r => some (null, r)
    | 't' :: 'r' :: 'u' :: 'e' :: r => some (bool true, r)
    | 'f' :: 'a' :: 'l' :: 's' :: 'e' :: r => some (bool false, r)
    | '"' :: r =>
      match stringFrom [] r with
      | some (s, rest) => some (string s, rest)
      | none => none
    | '[' :: r =>
      match skip r with
      | ']' :: rest => some (array [], rest)
      | r' => elements fuel [] r'
    | '\x7b' :: r =>
      match skip r with
      | '\x7d' :: rest => some (object [], rest)
      | r' => members fuel [] r'
    | '-' :: r =>
      match unsignedNumber r with
      | some (ds, rest) => some (number ('-' :: ds), rest)
      | none => none
    | cs =>
      match unsignedNumber cs with
      | some (ds, rest) => some (number ds, rest)
      | none => none

/-- The items of an array up to its end, with those so far in reverse. -/
def elements : (fuel : Nat) → List Json → List Char → Option (Json × List Char)
  | 0, _, _ => none
  | fuel + 1, done, cs =>
    match value fuel cs with
    | none => none
    | some (v, r) =>
      match skip r with
      | ',' :: r' => elements fuel (v :: done) (skip r')
      | ']' :: r' => some (array (v :: done).reverse, r')
      | _ => none

/-- The members of an object up to its end, with those so far in reverse. -/
def members : (fuel : Nat) → List (Option String × Json) → List Char → Option (Json × List Char)
  | 0, _, _ => none
  | fuel + 1, done, cs =>
    match cs with
    | '"' :: r =>
      match stringFrom [] r with
      | none => none
      | some (key, r) =>
        match skip r with
        | ':' :: r =>
          match value fuel (skip r) with
          | none => none
          | some (v, r) =>
            match skip r with
            | ',' :: r' => members fuel ((key, v) :: done) (skip r')
            | '\x7d' :: r' => some (object ((key, v) :: done).reverse, r')
            | _ => none
        | _ => none
    | _ => none

end

/-- The one value of a text. -/
def read? (s : String) : Option Json :=
  let cs := s.toList
  match value (2 * cs.length + 2) (skip cs) with
  | some (v, rest) => if rest.all isSpace then some v else none
  | none => none

end Json
end Intake
