/-!
# Numerals

Reading and writing of whole numbers in base ten and sixteen. The readers take
digits alone: no sign, no separator, no blank.
-/

namespace Intake.Text

/-- The value of a decimal digit. -/
def digit? (c : Char) : Option Nat :=
  if '0' ≤ c && c ≤ '9' then some (c.toNat - '0'.toNat) else none

/-- The value of a hexadecimal digit of either case. -/
def hexDigit? (c : Char) : Option Nat :=
  if '0' ≤ c && c ≤ '9' then some (c.toNat - '0'.toNat)
  else if 'a' ≤ c && c ≤ 'f' then some (c.toNat - 'a'.toNat + 10)
  else if 'A' ≤ c && c ≤ 'F' then some (c.toNat - 'A'.toNat + 10)
  else none

/-- Reads on in a base, with the value so far. -/
def numeralFrom (value : Char → Option Nat) (base : Nat) (acc : Nat) : List Char → Option Nat
  | [] => some acc
  | c :: r =>
    match value c with
    | some d => numeralFrom value base (acc * base + d) r
    | none => none

/-- The number that a list of decimal digits writes; `none` for no digit at all. -/
def decimal? (cs : List Char) : Option Nat :=
  if cs.isEmpty then none else numeralFrom digit? 10 0 cs

/-- The number that a list of hexadecimal digits writes; `none` for no digit at all. -/
def hexadecimal? (cs : List Char) : Option Nat :=
  if cs.isEmpty then none else numeralFrom hexDigit? 16 0 cs

/-- The lower-case digit of a value below sixteen. -/
def hexDigit (n : Nat) : Char :=
  if n < 10 then Char.ofNat ('0'.toNat + n) else Char.ofNat ('a'.toNat + (n - 10))

/-- The last `width` hexadecimal digits of a number, zeros included. -/
def hexPadded : (width : Nat) → Nat → List Char
  | 0, _ => []
  | w + 1, n => hexPadded w (n / 16) ++ [hexDigit (n % 16)]

/-- The last `width` decimal digits of a number, zeros included. -/
def decimalPadded : (width : Nat) → Nat → List Char
  | 0, _ => []
  | w + 1, n => decimalPadded w (n / 10) ++ [Char.ofNat ('0'.toNat + n % 10)]

/-- A number in hexadecimal without leading zeros. -/
def hex (n : Nat) : List Char :=
  Nat.toDigits 16 n

end Intake.Text
