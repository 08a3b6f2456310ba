import Intake.Text.Digits
import Intake.Text.Utf8

/-!
# Values of portable documents

The values of which a portable document consists, and their written form. Values stand
in a row until a word ends it: the operators of page contents and the marks around
stored objects are such words. Bytes are read as characters below 256.
-/

namespace Intake.Pdf

/-- A value. -/
inductive Value where
  | null
  | boolean (b : Bool)
  | number (q : Rat)
  | name (s : String)
  /-- The characters stand for bytes. -/
  | string (cs : List Char)
  | array (items : List Value)
  | dictionary (members : List (String × Value))
  /-- The object of a number. -/
  | reference (n : Nat)

namespace Value

/-- A member of a dictionary. -/
def member? (key : String) : Value → Option Value
  | dictionary members => (members.find? (·.1 == key)).map Prod.snd
  | _ => none

/-- A number. -/
def number? : Value → Option Rat
  | number q => some q
  | _ => none

/-- A whole number that is not negative. -/
def natural? : Value → Option Nat
  | number q => if q.den = 1 && 0 ≤ q.num then some q.num.toNat else none
  | _ => none

/-- The items of an array. -/
def items? : Value → Option (List Value)
  | array items => some items
  | _ => none

end Value

/-! ## Characters -/

/-- The bytes as characters. -/
def charsOf (bs : Bytes) : List Char :=
  bs.map fun b => Char.ofNat b.toNat

/-- White space. -/
def isSpace (c : Char) : Bool :=
  c = ' ' || c = '\n' || c = '\r' || c = '\t' || c.toNat = 12 || c.toNat = 0

/-- The characters that end a word. -/
def isDelimiter (c : Char) : Bool :=
  "()<>[]\x7b\x7d/%".toList.contains c

/-- The characters of words and numbers. -/
def isRegular (c : Char) : Bool :=
  !isSpace c && !isDelimiter c

/-! ## Strings -/

/-- Reads at most `n` octal digits. -/
def octal : (n : Nat) → Nat → List Char → Nat × List Char
  | n + 1, acc, c :: r =>
    if '0' ≤ c && c ≤ '7' then octal n (acc * 8 + (c.toNat - '0'.toNat)) r else (acc, c :: r)
  | _, acc, r => (acc, r)

/-- The character after a backslash: what it adds, and the rest. -/
def escape (cs : List Char) : List Char × List Char :=
  match cs with
  | 'n' :: r => (['\n'], r)
  | 'r' :: r => (['\r'], r)
  | 't' :: r => (['\t'], r)
  | 'b' :: r => (['\x08'], r)
  | 'f' :: r => (['\x0c'], r)
  | '\r' :: '\n' :: r => ([], r)
  | '\n' :: r => ([], r)
  | '\r' :: r => ([], r)
  | c :: r =>
    if '0' ≤ c && c ≤ '7' then
      let (n, rest) := octal 3 0 (c :: r)
      ([Char.ofNat (n % 256)], rest)
    else ([c], r)
  | [] => ([], [])

/-- Reads a string in round brackets, which may nest; the characters so far in reverse. -/
def literal? : (fuel depth : Nat) → List Char → List Char → Option (List Char × List Char)
  | 0, _, _, _ => none
  | _, _, _, [] => none
  | fuel + 1, depth, done, c :: r =>
    if c = '\\' then
      let (added, rest) := escape r
      literal? fuel depth (added.reverse ++ done) rest
    else if c = '(' then literal? fuel (depth + 1) (c :: done) r
    else if c = ')' then
      if depth = 0 then some (done.reverse, r) else literal? fuel (depth - 1) (c :: done) r
    else literal? fuel depth (c :: done) r

/-- Pairs of hexadecimal digits as characters; a missing last digit is a zero. -/
def ofHexDigits : List Nat → List Char
  | a :: b :: r => Char.ofNat (a * 16 + b) :: ofHexDigits r
  | [a] => [Char.ofNat (a * 16)]
  | [] => []

/-- Reads a string of hexadecimal digits. -/
def hexString? (cs : List Char) : Option (List Char × List Char) := do
  let digits ← ((cs.takeWhile (· != '>')).filter (!isSpace ·)).mapM Text.hexDigit?
  match cs.dropWhile (· != '>') with
  | _ :: r => some (ofHexDigits digits, r)
  | [] => none

/-! ## Tokens -/

/-- A piece of the written form. -/
inductive Token where
  | value (v : Value)
  | word (s : String)
  | openArray
  | closeArray
  | openDictionary
  | closeDictionary

/-- The value of a numeral: digits with at most one point, perhaps after a sign. -/
def numeral? (cs : List Char) : Option Rat := do
  let (sign, body) : Rat × List Char := match cs with
    | '-' :: r => (-1, r)
    | '+' :: r => (1, r)
    | r => (1, r)
  let whole := body.takeWhile (· != '.')
  let fraction := (body.dropWhile (· != '.')).drop 1
  let digits := whole ++ fraction
  let n ← Text.decimal? digits
  some (sign * (n : Rat) / ((Nat.pow 10 fraction.length : Nat) : Rat))

/-- A name with `#` before the hexadecimal codes of some characters. -/
def nameText : List Char → List Char
  | '#' :: a :: b :: r =>
    match Text.hexDigit? a, Text.hexDigit? b with
    | some x, some y => Char.ofNat (x * 16 + y) :: nameText r
    | _, _ => '#' :: nameText (a :: b :: r)
  | c :: r => c :: nameText r
  | [] => []

/-- Skips white space and comments. -/
def skipSpace : (fuel : Nat) → List Char → List Char
  | 0, cs => cs
  | fuel + 1, cs =>
    match cs.dropWhile isSpace with
    | '%' :: r => skipSpace fuel (r.dropWhile fun c => c != '\n' && c != '\r')
    | r => r

/-- The first token and what follows it; none at the end or where nothing fits. -/
def token? (cs : List Char) : Option (Token × List Char) :=
  match skipSpace (cs.length + 1) cs with
  | [] => none
  | '[' :: r => some (.openArray, r)
  | ']' :: r => some (.closeArray, r)
  | '<' :: '<' :: r => some (.openDictionary, r)
  | '>' :: '>' :: r => some (.closeDictionary, r)
  | '<' :: r => (hexString? r).map fun (s, rest) => (.value (.string s), rest)
  | '(' :: r => (literal? (r.length + 1) 0 [] r).map fun (s, rest) => (.value (.string s), rest)
  | '/' :: r =>
    some (.value (.name (String.ofList (nameText (r.takeWhile isRegular)))),
      r.dropWhile isRegular)
  | c :: r =>
    if isRegular c then
      let body := (c :: r).takeWhile isRegular
      let rest := (c :: r).dropWhile isRegular
      let token : Token :=
        match numeral? body with
        | some q => .value (.number q)
        | none =>
          if body == "true".toList then .value (.boolean true)
          else if body == "false".toList then .value (.boolean false)
          else if body == "null".toList then .value .null
          else .word (String.ofList body)
      some (token, rest)
    else none

/-! ## Rows of values -/

/-- An array or a dictionary that is not closed yet; its items stand in reverse. -/
inductive Frame where
  | array (items : List Value)
  | dictionary (items : List Value)

/-- Pairs of a name and a value as members. -/
def membersOf? : List Value → Option (List (String × Value))
  | .name key :: v :: r => (membersOf? r).map ((key, v) :: ·)
  | [] => some []
  | _ => none

/-- A frame with one more item. -/
def Frame.push (v : Value) : Frame → Frame
  | array items => array (v :: items)
  | dictionary items => dictionary (v :: items)

/-- Puts a value into the innermost frame, or into the row. -/
def place (v : Value) (frames : List Frame) (row : List Value) : List Frame × List Value :=
  match frames with
  | f :: fs => (f.push v :: fs, row)
  | [] => ([], v :: row)

/-- Makes a reference of the last two items, which stand in reverse. -/
def refer? : List Value → Option (List Value)
  | generation :: n :: r => do
    let _ ← generation.natural?
    some (.reference (← n.natural?) :: r)
  | _ => none

/-- Reads values up to the next word: the values, the word and what follows it. The row
so far stands in reverse. Each step takes a character of `fuel`. -/
def rowFrom? : (fuel : Nat) → List Frame → List Value → List Char →
    Option (List Value × String × List Char)
  | 0, _, _, _ => none
  | fuel + 1, frames, row, cs => do
    let (token, rest) ← token? cs
    match token with
    | .value v =>
      let (frames, row) := place v frames row
      rowFrom? fuel frames row rest
    | .openArray => rowFrom? fuel (.array [] :: frames) row rest
    | .openDictionary => rowFrom? fuel (.dictionary [] :: frames) row rest
    | .closeArray =>
      match frames with
      | .array items :: fs =>
        let (frames, row) := place (.array items.reverse) fs row
        rowFrom? fuel frames row rest
      | _ => none
    | .closeDictionary =>
      match frames with
      | .dictionary items :: fs =>
        let members ← membersOf? items.reverse
        let (frames, row) := place (.dictionary members) fs row
        rowFrom? fuel frames row rest
      | _ => none
    | .word w =>
      if w = "R" then
        match frames with
        | .array items :: fs => rowFrom? fuel (.array (← refer? items) :: fs) row rest
        | .dictionary items :: fs => rowFrom? fuel (.dictionary (← refer? items) :: fs) row rest
        | [] => rowFrom? fuel [] (← refer? row) rest
      else if frames.isEmpty then some (row.reverse, w, rest)
      else none

/-- Reads values up to the next word. -/
def row? (cs : List Char) : Option (List Value × String × List Char) :=
  rowFrom? (cs.length + 1) [] [] cs

end Intake.Pdf
