import Intake.Text.Digits

/-!
# Decimal numerals of binary numbers

Reading a decimal numeral as the nearest binary number of double precision, and writing
such a number with the fewest digits that are read back as it, without an exponent. All
of it is exact arithmetic on whole numbers.
-/

namespace Intake

/-- A number of double precision. -/
inductive Double where
  /-- The value is `mantissa * 2 ^ (exponent - 1074)`, with the sign in front. -/
  | finite (negative : Bool) (mantissa exponent : Nat)
  | infinite (negative : Bool)
  | undefined
  deriving DecidableEq, Repr

namespace Double

/-- The least exponent is minus this. -/
def bias : Nat := 1074

/-- The least mantissa of full precision. -/
def full : Nat := Nat.pow 2 52

/-- Rounds a quotient to the nearest whole number, a half to the even one. -/
def roundDiv (num den : Nat) : Nat :=
  let q := num / den
  let r := num % den
  if 2 * r < den then q else if den < 2 * r then q + 1 else q + q % 2

/-- The nearest double to `num / den`. The mantissa is to have 53 bits unless the
exponent is the least one. -/
def nearest (negative : Bool) (num den : Nat) : Double :=
  let scaled := num * Nat.pow 2 bias
  let exponent := (scaled / den).log2 - 52
  let mantissa := roundDiv scaled (den * Nat.pow 2 exponent)
  let (mantissa, exponent) :=
    if mantissa = 2 * full then (full, exponent + 1) else (mantissa, exponent)
  if exponent < 2046 then .finite negative mantissa exponent else .infinite negative

/-! ## Reading -/

/-- The value of digits, after those already read. -/
def valueFrom (acc : Nat) (ds : List Char) : Nat :=
  ds.foldl (fun n c => n * 10 + (c.toNat - '0'.toNat)) acc

/-- An exponent: digits, perhaps after a sign. -/
def exponent? (cs : List Char) : Option Int :=
  match cs with
  | '-' :: ds => (Text.decimal? ds).map fun n => -Int.ofNat n
  | '+' :: ds => (Text.decimal? ds).map Int.ofNat
  | ds => (Text.decimal? ds).map Int.ofNat

/-- Beyond this many places every number is zero or infinite. -/
def farAway : Nat := 1100

/-- The double of a whole number times a power of ten. -/
def scaled (negative : Bool) (digits : Nat) (places : Int) : Double :=
  if digits = 0 then .finite negative 0 0
  else
    let magnitude := places + Int.ofNat (Nat.toDigits 10 digits).length
    if farAway < magnitude then .infinite negative
    else if magnitude < -Int.ofNat farAway then .finite negative 0 0
    else if 0 ≤ places then nearest negative (digits * Nat.pow 10 places.toNat) 1
    else nearest negative digits (Nat.pow 10 (-places).toNat)

/-- A numeral without its sign. -/
def unsigned? (negative : Bool) (cs : List Char) : Option Double :=
  let word := cs.map Char.toLower
  if word == "nan".toList then some .undefined
  else if word == "inf".toList || word == "infinity".toList then some (.infinite negative)
  else
    let whole := cs.takeWhile Char.isDigit
    let rest := cs.dropWhile Char.isDigit
    let (fraction, rest) := match rest with
      | '.' :: r => (r.takeWhile Char.isDigit, r.dropWhile Char.isDigit)
      | _ => ([], rest)
    if whole.isEmpty && fraction.isEmpty then none
    else
      let digits := valueFrom (valueFrom 0 whole) fraction
      let places := -Int.ofNat fraction.length
      match rest with
      | [] => some (scaled negative digits places)
      | e :: r =>
        if e = 'e' || e = 'E' then (exponent? r).map fun n => scaled negative digits (places + n)
        else none

/-- Reads a numeral. -/
def read? (cs : List Char) : Option Double :=
  match cs with
  | '-' :: r => unsigned? true r
  | '+' :: r => unsigned? false r
  | r => unsigned? false r

/-! ## Writing -/

/-- The numbers that are read as a given double lie between two bounds, here in units of
`2 ^ -1076`; the bounds are among them if the mantissa is even. -/
structure Interval where
  low : Nat
  high : Nat
  closed : Bool

/-- The interval of a double. Below a power of two the numbers are twice as dense. -/
def interval (mantissa exponent : Nat) : Interval :=
  let unit := Nat.pow 2 exponent
  { low := if mantissa = full && exponent != 0 then (4 * mantissa - 1) * unit
      else (4 * mantissa - 2) * unit
    high := (4 * mantissa + 2) * unit
    closed := mantissa % 2 == 0 }

/-- Holds of the decimals inside an interval: `digits * 10 ^ up / 10 ^ down`. -/
def Interval.holds (i : Interval) (digits up down : Nat) : Bool :=
  let value := digits * Nat.pow 10 up * Nat.pow 2 1076
  let low := i.low * Nat.pow 10 down
  let high := i.high * Nat.pow 10 down
  if i.closed then low ≤ value && value ≤ high else low < value && value < high

/-- The decimal of a double on the grid of multiples of a power of ten, if one of the two
neighbours on the grid is read back as the double: the nearer one, of two equally near
ones the even one. -/
def onGrid? (mantissa exponent up down : Nat) : Option Nat :=
  let i := interval mantissa exponent
  let num := mantissa * Nat.pow 2 exponent * Nat.pow 10 down
  let den := Nat.pow 10 up * Nat.pow 2 bias
  let below := num / den
  let near := roundDiv num den
  let far := if near = below then below + 1 else below
  if i.holds near up down then some near
  else if i.holds far up down then some far
  else none

/-- The number of digits before the point. -/
def magnitude (num den : Nat) : Int :=
  if den ≤ num then Int.ofNat (Nat.toDigits 10 (num / den)).length
  else 1 - Int.ofNat (Nat.toDigits 10 ((den - 1) / num)).length

/-- Tries grids of ever more digits: the digits and the power of ten of the last one. -/
def shortestFrom (mantissa exponent : Nat) (m : Int) : (tries : Nat) → (n : Nat) → Nat × Int
  | 0, _ => (0, 0)
  | tries + 1, n =>
    let places := m - Int.ofNat n
    match onGrid? mantissa exponent places.toNat (-places).toNat with
    | some digits => (digits, places)
    | none => shortestFrom mantissa exponent m tries (n + 1)

/-- The digits of a double, and the power of ten of the last one, with as few digits as
are read back. Seventeen always suffice. -/
def shortest (mantissa exponent : Nat) : Nat × Int :=
  shortestFrom mantissa exponent (magnitude (mantissa * Nat.pow 2 exponent) (Nat.pow 2 bias)) 17 1

/-- Digits and a power of ten in positional notation. -/
def positional (digits : Nat) (places : Int) : List Char :=
  let ds := Nat.toDigits 10 digits
  if 0 ≤ places then ds ++ List.replicate places.toNat '0'
  else
    let after := (-places).toNat
    let padded := List.replicate (after + 1 - ds.length) '0' ++ ds
    let whole := padded.take (padded.length - after)
    let fraction := ((padded.drop (padded.length - after)).reverse.dropWhile (· == '0')).reverse
    if fraction.isEmpty then whole else whole ++ '.' :: fraction

/-- Writes a number. -/
def write : Double → String
  | .undefined => "NaN"
  | .infinite negative => if negative then "-inf" else "inf"
  | .finite negative mantissa exponent =>
    let (digits, places) := if mantissa = 0 then (0, 0) else shortest mantissa exponent
    String.ofList ((if negative then ['-'] else []) ++ positional digits places)

end Double
end Intake
