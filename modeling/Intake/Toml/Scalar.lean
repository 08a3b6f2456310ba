import Intake.Text.Digits
import Intake.Timestamp
import Intake.Toml

/-!
# TOML scalars

Strings in their four forms, whole numbers in four bases, floats, dates and times.
A reader takes the front of a text and gives back what follows it.
-/

namespace Intake.Toml

/-- Holds of the blanks inside a line. -/
def isSpace (c : Char) : Bool :=
  c = ' ' || c = '\t'

/-- Drops the blanks inside a line. -/
def skipSpace (cs : List Char) : List Char :=
  cs.dropWhile isSpace

/-- Holds of the characters that may stand in comments and literal strings. -/
def isShown (c : Char) : Bool :=
  c = '\t' || (0x20 ≤ c.toNat && c.toNat ≤ 0x7E) || 0x80 ≤ c.toNat

/-- A line end, as one line feed or with a carriage return before it. -/
def newline? : List Char → Option (List Char)
  | '\n' :: r => some r
  | '\r' :: '\n' :: r => some r
  | _ => none

/-! ## Strings -/

/-- The character of a number, if it is one. -/
def scalar? (n : Nat) : Option Char :=
  if n < 0xD800 || (0xE000 ≤ n && n < 0x110000) then some (Char.ofNat n) else none

/-- The character of an escape after its backslash. -/
def escape : List Char → Option (Char × List Char)
  | 'b' :: r => some ('\x08', r)
  | 't' :: r => some ('\t', r)
  | 'n' :: r => some ('\n', r)
  | 'f' :: r => some ('\x0c', r)
  | 'r' :: r => some ('\r', r)
  | '"' :: r => some ('"', r)
  | '\\' :: r => some ('\\', r)
  | 'u' :: r => do
    if (r.take 4).length < 4 then none
    let c ← scalar? (← Text.hexadecimal? (r.take 4))
    some (c, r.drop 4)
  | 'U' :: r => do
    if (r.take 8).length < 8 then none
    let c ← scalar? (← Text.hexadecimal? (r.take 8))
    some (c, r.drop 8)
  | _ => none

/-- A string in double quotes, from after the opening quote. The fuel bounds the
number of characters. -/
def basicFrom (done : List Char) : (fuel : Nat) → List Char → Option (String × List Char)
  | 0, _ => none
  | fuel + 1, cs =>
    match cs with
    | '"' :: r => some (String.ofList done.reverse, r)
    | '\\' :: r =>
      match escape r with
      | some (c, r') => basicFrom (c :: done) fuel r'
      | none => none
    | c :: r => if isShown c then basicFrom (c :: done) fuel r else none
    | [] => none

/-- A string in single quotes, from after the opening quote. -/
def literalFrom (done : List Char) : List Char → Option (String × List Char)
  | '\'' :: r => some (String.ofList done.reverse, r)
  | c :: r => if isShown c then literalFrom (c :: done) r else none
  | [] => none

/-- The blanks and line ends after a backslash at a line end. -/
def skipFold : List Char → List Char
  | ' ' :: r => skipFold r
  | '\t' :: r => skipFold r
  | '\n' :: r => skipFold r
  | '\r' :: '\n' :: r => skipFold r
  | r => r

/-- Drops the line end directly after an opening triple quote. -/
def afterOpening (cs : List Char) : List Char :=
  (newline? cs).getD cs

/-- A string in triple double quotes, from after the opening. Up to two quotes may
stand directly before the closing ones. -/
def longBasicFrom (done : List Char) : (fuel : Nat) → List Char → Option (String × List Char)
  | 0, _ => none
  | fuel + 1, cs =>
    match cs with
    | '"' :: '"' :: '"' :: '"' :: '"' :: r =>
      some (String.ofList ('"' :: '"' :: done).reverse, r)
    | '"' :: '"' :: '"' :: '"' :: r => some (String.ofList ('"' :: done).reverse, r)
    | '"' :: '"' :: '"' :: r => some (String.ofList done.reverse, r)
    | '"' :: r => longBasicFrom ('"' :: done) fuel r
    | '\\' :: r =>
      match newline? (skipSpace r) with
      | some r' => longBasicFrom done fuel (skipFold r')
      | none =>
        match escape r with
        | some (c, r') => longBasicFrom (c :: done) fuel r'
        | none => none
    | '\n' :: r => longBasicFrom ('\n' :: done) fuel r
    | '\r' :: '\n' :: r => longBasicFrom ('\n' :: done) fuel r
    | c :: r => if isShown c then longBasicFrom (c :: done) fuel r else none
    | [] => none

/-- A string in triple single quotes, from after the opening. -/
def longLiteralFrom (done : List Char) : List Char → Option (String × List Char)
  | '\'' :: '\'' :: '\'' :: '\'' :: '\'' :: r =>
    some (String.ofList ('\'' :: '\'' :: done).reverse, r)
  | '\'' :: '\'' :: '\'' :: '\'' :: r => some (String.ofList ('\'' :: done).reverse, r)
  | '\'' :: '\'' :: '\'' :: r => some (String.ofList done.reverse, r)
  | '\n' :: r => longLiteralFrom ('\n' :: done) r
  | '\r' :: '\n' :: r => longLiteralFrom ('\n' :: done) r
  | c :: r => if isShown c then longLiteralFrom (c :: done) r else none
  | [] => none

/-- A string in any of the four forms. -/
def stringValue (cs : List Char) : Option (String × List Char) :=
  match cs with
  | '"' :: '"' :: '"' :: r => longBasicFrom [] (r.length + 1) (afterOpening r)
  | '\'' :: '\'' :: '\'' :: r => longLiteralFrom [] (afterOpening r)
  | '"' :: r => basicFrom [] (r.length + 1) r
  | '\'' :: r => literalFrom [] r
  | _ => none

/-! ## Numbers -/

/-- Digits with single underscores between them, as the digits alone. -/
def spacedDigits (isDigit : Char → Bool) (cs : List Char) : Option (List Char) :=
  let rec go (done : List Char) : List Char → Option (List Char)
    | [] => some done.reverse
    | '_' :: d :: r => if !done.isEmpty && isDigit d then go (d :: done) r else none
    | d :: r => if isDigit d then go (d :: done) r else none
  if cs.isEmpty then none else go [] cs

/-- Holds of the decimal digits. -/
def isDecimal (c : Char) : Bool :=
  '0' ≤ c && c ≤ '9'

/-- Holds of the hexadecimal digits. -/
def isHexadecimal (c : Char) : Bool :=
  (Text.hexDigit? c).isSome

/-- Holds of the octal digits. -/
def isOctal (c : Char) : Bool :=
  '0' ≤ c && c ≤ '7'

/-- Holds of the binary digits. -/
def isBinary (c : Char) : Bool :=
  c = '0' || c = '1'

/-- Above every whole number; the negative of it is the least one. -/
def integerBound : Nat := Nat.pow 2 63

/-- A whole number fits 64 bits with sign. -/
def inRange (n : Int) : Option Int :=
  if -(integerBound : Int) ≤ n && n < integerBound then some n else none

/-- A sign at the front, and what follows it. -/
def signOf : List Char → Bool × List Char
  | '-' :: r => (true, r)
  | '+' :: r => (false, r)
  | r => (false, r)

/-- The digits of a decimal number: no zero stands before other digits. -/
def decimalDigits (cs : List Char) : Option (List Char) := do
  let ds ← spacedDigits isDecimal cs
  match ds with
  | '0' :: _ :: _ => none
  | _ => some ds

/-- A whole number. -/
def integer? (cs : List Char) : Option Int :=
  match cs with
  | '0' :: 'x' :: r => do
    inRange ((← Text.hexadecimal? (← spacedDigits isHexadecimal r)) : Nat)
  | '0' :: 'o' :: r => do
    inRange ((← Text.numeralFrom Text.digit? 8 0 (← spacedDigits isOctal r)) : Nat)
  | '0' :: 'b' :: r => do
    inRange ((← Text.numeralFrom Text.digit? 2 0 (← spacedDigits isBinary r)) : Nat)
  | _ => do
    let (negative, ds) := signOf cs
    let n ← Text.decimal? (← decimalDigits ds)
    inRange (if negative then -(n : Int) else n)

/-- The largest exponent that is worked out; above it any digit overflows. -/
def exponentCap : Nat := 100000

/-- The least number that rounds to more than the largest float. -/
def floatBound : Nat := Nat.pow 2 1024 - Nat.pow 2 970

/-- Holds if digits with a power of ten round to more than the largest float. -/
def overflows (digits : Nat) (exponent : Int) : Bool :=
  if digits == 0 then false
  else if 0 ≤ exponent then
    if exponentCap < exponent.toNat then true
    else floatBound ≤ digits * Nat.pow 10 exponent.toNat
  else
    if exponentCap < exponent.natAbs then false
    else floatBound * Nat.pow 10 exponent.natAbs ≤ digits

/-- Holds of the written floats: digits with a fraction, an exponent or both, and the
names of infinity and of no number. A positive one must not overflow. -/
def isFloat (cs : List Char) : Bool :=
  let (negative, cs) := signOf cs
  if cs == "inf".toList || cs == "nan".toList then true
  else
    let whole := cs.takeWhile (fun c => isDecimal c || c = '_')
    let rest := cs.dropWhile (fun c => isDecimal c || c = '_')
    let (fraction, rest) := match rest with
      | '.' :: r => (some (r.takeWhile (fun c => isDecimal c || c = '_')),
          r.dropWhile (fun c => isDecimal c || c = '_'))
      | r => (none, r)
    let exponent := match rest with
      | 'e' :: r => some r
      | 'E' :: r => some r
      | _ => none
    let parts : Option (Nat × Int) := do
      let w ← decimalDigits whole
      let f ← match fraction with
        | some f => spacedDigits isDecimal f
        | none => some []
      let e : Int ← match exponent with
        | some r => do
          let (below, r) := signOf r
          let n ← Text.decimal? (← spacedDigits isDecimal r)
          some (if below then -(n : Int) else (n : Int))
        | none => some 0
      let n ← Text.decimal? (w ++ f)
      some (n, e - f.length)
    match parts with
    | none => false
    | some (n, e) =>
      (fraction.isSome || exponent.isSome) && (exponent.isSome || rest.isEmpty)
        && (negative || !overflows n e)

/-! ## Dates and times -/

/-- Exactly `n` digits at the front. -/
def fixedDigits (n : Nat) (cs : List Char) : Option (Nat × List Char) := do
  let ds := cs.take n
  if ds.length < n then none
  let v ← Text.decimal? ds
  some (v, cs.drop n)

/-- A calendar day. -/
def date? (cs : List Char) : Option (List Char) := do
  let (y, cs) ← fixedDigits 4 cs
  let cs ← match cs with | '-' :: r => some r | _ => none
  let (m, cs) ← fixedDigits 2 cs
  let cs ← match cs with | '-' :: r => some r | _ => none
  let (d, cs) ← fixedDigits 2 cs
  if 1 ≤ m && m ≤ 12 && 1 ≤ d && d ≤ Timestamp.daysInMonth y m then some cs else none

/-- A time of day, with or without a fraction of a second. -/
def time? (cs : List Char) : Option (List Char) := do
  let (h, cs) ← fixedDigits 2 cs
  let cs ← match cs with | ':' :: r => some r | _ => none
  let (m, cs) ← fixedDigits 2 cs
  let cs ← match cs with | ':' :: r => some r | _ => none
  let (s, cs) ← fixedDigits 2 cs
  if h ≤ 23 && m ≤ 59 && s ≤ 60 then
    match cs with
    | '.' :: r => if (r.takeWhile isDecimal).isEmpty then none else some (r.dropWhile isDecimal)
    | r => some r
  else none

/-- Nothing, or an offset from UTC. -/
def isOffset : List Char → Bool
  | [] => true
  | ['Z'] => true
  | ['z'] => true
  | sign :: r =>
    (sign = '+' || sign = '-') &&
      match fixedDigits 2 r with
      | some (h, ':' :: r') =>
        match fixedDigits 2 r' with
        | some (m, []) => h ≤ 23 && m ≤ 59
        | _ => false
      | _ => false

/-- Holds of the written dates, times and dates with times. -/
def isDatetime (cs : List Char) : Bool :=
  match time? cs with
  | some rest => rest.isEmpty
  | none =>
    match date? cs with
    | none => false
    | some [] => true
    | some (sep :: r) =>
      (sep = 'T' || sep = 't' || sep = ' ') &&
        match time? r with
        | some rest => isOffset rest
        | none => false

/-- Holds of the characters of numbers, dates and names. -/
def isWordChar (c : Char) : Bool :=
  isDecimal c || ('a' ≤ c && c ≤ 'z') || ('A' ≤ c && c ≤ 'Z') || c = '+' || c = '-' || c = '_'
    || c = '.' || c = ':'

/-- The word at the front; a date and a time after one blank are one word. -/
def word (cs : List Char) : List Char × List Char :=
  let w := cs.takeWhile isWordChar
  let r := cs.dropWhile isWordChar
  match date? w, r with
  | some [], ' ' :: r' =>
    let w' := r'.takeWhile isWordChar
    if isDatetime (w ++ ' ' :: w') then (w ++ ' ' :: w', r'.dropWhile isWordChar) else (w, r)
  | _, _ => (w, r)

/-- A value that is one word. -/
def wordValue (cs : List Char) : Option (Toml × List Char) :=
  let (w, rest) := word cs
  if w == "true".toList then some (.boolean true, rest)
  else if w == "false".toList then some (.boolean false, rest)
  else if isDatetime w then some (.datetime, rest)
  else if isFloat w then some (.float, rest)
  else
    match integer? w with
    | some n => some (.integer n, rest)
    | none => none

end Intake.Toml
