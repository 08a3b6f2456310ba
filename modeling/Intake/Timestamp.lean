import Intake.Text.Blank
import Intake.Text.Digits

/-!
# Points in time on the wire

A timestamp is a calendar day, a second of that day and a number of nanoseconds, all
in UTC. A leap second is the last second of a minute with a billion nanoseconds more.
`write` gives the shortest of the forms with 0, 3, 6 or 9 fraction digits that loses
nothing; `read?` accepts any offset, one-digit fields and blanks between the fields.
-/

namespace Intake

/-- A point in time in UTC. -/
structure Timestamp where
  year : Int
  month : Nat
  day : Nat
  /-- The second of the day. -/
  second : Nat
  /-- The nanoseconds after it; a billion or more in a leap second. -/
  nanos : Nat
  deriving DecidableEq, Repr

namespace Timestamp

/-- The Gregorian leap years. -/
def isLeapYear (y : Int) : Bool :=
  y % 4 == 0 && (y % 100 != 0 || y % 400 == 0)

/-- The number of days in a month. -/
def daysInMonth (y : Int) (m : Nat) : Nat :=
  if m == 2 then (if isLeapYear y then 29 else 28)
  else if m == 4 || m == 6 || m == 9 || m == 11 then 30
  else 31

/-- Holds of the timestamps that name a point in time. -/
structure Valid (t : Timestamp) : Prop where
  month_pos : 1 ≤ t.month
  month_le : t.month ≤ 12
  day_pos : 1 ≤ t.day
  day_le : t.day ≤ daysInMonth t.year t.month
  second_lt : t.second < 86400
  nanos_lt : t.nanos < 2000000000
  leap : 1000000000 ≤ t.nanos → t.second % 60 = 59

/-- The first and the last year that can be named. -/
def yearRange : Int × Int := (-262143, 262142)

/-- The same second of the next day. -/
def nextDay (t : Timestamp) : Timestamp :=
  if t.day < daysInMonth t.year t.month then { t with day := t.day + 1 }
  else if t.month < 12 then { t with month := t.month + 1, day := 1 }
  else { t with year := t.year + 1, month := 1, day := 1 }

/-- The same second of the day before. -/
def previousDay (t : Timestamp) : Timestamp :=
  if 1 < t.day then { t with day := t.day - 1 }
  else if 1 < t.month then
    { t with month := t.month - 1, day := daysInMonth t.year (t.month - 1) }
  else { t with year := t.year - 1, month := 12, day := 31 }

/-- Moves back by less than a day, given in seconds; forward if negative. -/
def back (t : Timestamp) (seconds : Int) : Timestamp :=
  let s := (t.second : Int) - seconds
  if s < 0 then previousDay { t with second := (s + 86400).toNat }
  else if s < 86400 then { t with second := s.toNat }
  else nextDay { t with second := (s - 86400).toNat }

/-! ## Writing -/

/-- Four digits for the years 0 to 9999, else a sign and at least four digits. -/
def writeYear (y : Int) : List Char :=
  if 0 ≤ y && y ≤ 9999 then Text.decimalPadded 4 y.toNat
  else
    let n := y.natAbs
    (if y < 0 then '-' else '+')
      :: (if n ≤ 9999 then Text.decimalPadded 4 n else (toString n).toList)

/-- The shortest fraction of 0, 3, 6 or 9 digits that keeps the nanoseconds. -/
def writeFraction (n : Nat) : List Char :=
  if n == 0 then []
  else if n % 1000000 == 0 then '.' :: Text.decimalPadded 3 (n / 1000000)
  else if n % 1000 == 0 then '.' :: Text.decimalPadded 6 (n / 1000)
  else '.' :: Text.decimalPadded 9 n

/-- The characters of a timestamp on the wire. -/
def writeChars (t : Timestamp) : List Char :=
  let leap := t.nanos / 1000000000
  writeYear t.year ++ ['-'] ++ Text.decimalPadded 2 t.month ++ ['-']
    ++ Text.decimalPadded 2 t.day ++ ['T'] ++ Text.decimalPadded 2 (t.second / 3600) ++ [':']
    ++ Text.decimalPadded 2 (t.second / 60 % 60) ++ [':']
    ++ Text.decimalPadded 2 (t.second % 60 + leap) ++ writeFraction (t.nanos % 1000000000) ++ ['Z']

/-- A timestamp on the wire. -/
def write (t : Timestamp) : String :=
  String.ofList t.writeChars

/-! ## Reading -/

/-- The digits at the front, at most `most` of them, and what follows. -/
def takeDigits : (most : Nat) → List Char → List Char × List Char
  | 0, cs => ([], cs)
  | _ + 1, [] => ([], [])
  | n + 1, c :: r =>
    if (Text.digit? c).isSome then
      let (ds, rest) := takeDigits n r
      (c :: ds, rest)
    else ([], c :: r)

/-- A number of one to `most` digits after any blanks. -/
def number (most : Nat) (cs : List Char) : Option (Nat × List Char) := do
  let (ds, rest) := takeDigits most (cs.dropWhile Text.isBlank)
  let n ← Text.decimal? ds
  some (n, rest)

/-- A year: up to four digits, or any number of them after a sign. -/
def readYear (cs : List Char) : Option (Int × List Char) :=
  match cs.dropWhile Text.isBlank with
  | '-' :: r => do
    let (ds, rest) := takeDigits r.length r
    let n ← Text.decimal? ds
    some (-(n : Int), rest)
  | '+' :: r => do
    let (ds, rest) := takeDigits r.length r
    let n ← Text.decimal? ds
    some ((n : Int), rest)
  | r => do
    let (n, rest) ← number 4 r
    some ((n : Int), rest)

/-- One given character after any blanks. -/
def mark (c : Char) (cs : List Char) : Option (List Char) :=
  match cs.dropWhile Text.isBlank with
  | d :: r => if d = c then some r else none
  | [] => none

/-- The fraction of a second in nanoseconds, if a point follows; digits after the
ninth are dropped. -/
def readFraction : List Char → Option (Nat × List Char)
  | '.' :: r => do
    let (ds, rest) := takeDigits 9 r
    let n ← Text.decimal? ds
    some (n * Nat.pow 10 (9 - ds.length), rest.dropWhile (fun c => (Text.digit? c).isSome))
  | cs => some (0, cs)

/-- Hours, any colons or blanks, and minutes of an offset. -/
def readOffsetTime (negative : Bool) : List Char → Option (Int × List Char)
  | h1 :: h2 :: r => do
    let a ← Text.digit? h1
    let b ← Text.digit? h2
    match r.dropWhile (fun c => c = ':' || Text.isBlank c) with
    | m1 :: m2 :: rest => do
      let c ← Text.digit? m1
      let d ← Text.digit? m2
      if 6 ≤ c then none
      let s : Int := ((a * 10 + b) * 3600 + (c * 10 + d) * 60 : Nat)
      some (if negative then -s else s, rest)
    | _ => none
  | _ => none

/-- The offset from UTC in seconds: `Z`, `UTC`, or a sign with hours and minutes. -/
def readOffset (cs : List Char) : Option (Int × List Char) :=
  let cs := cs.dropWhile Text.isBlank
  if (cs.take 3).map Char.toUpper == ['U', 'T', 'C'] then some (0, cs.drop 3)
  else
    match cs with
    | 'Z' :: r => some (0, r)
    | 'z' :: r => some (0, r)
    | '+' :: r => readOffsetTime false r
    | '-' :: r => readOffsetTime true r
    | '\u2212' :: r => readOffsetTime true r
    | _ => none

/-- A timestamp from its parts, if they name a point in time. -/
def ofParts? (y : Int) (mo d h mi s nanos : Nat) (offset : Int) : Option Timestamp :=
  if 1 ≤ mo && mo ≤ 12 && 1 ≤ d && d ≤ daysInMonth y mo && h ≤ 23 && mi ≤ 59 && s ≤ 60
      && offset.natAbs < 86400 then
    let leap := if s == 60 then 1 else 0
    let local' : Timestamp :=
      { year := y, month := mo, day := d, second := h * 3600 + mi * 60 + (s - leap),
        nanos := nanos + leap * 1000000000 }
    let t := local'.back offset
    if yearRange.1 ≤ y && y ≤ yearRange.2 && yearRange.1 ≤ t.year && t.year ≤ yearRange.2 then
      some t
    else none
  else none

/-- Reads the characters of a timestamp. -/
def readChars? (cs : List Char) : Option Timestamp := do
  let (y, cs) ← readYear cs
  let cs ← mark '-' cs
  let (mo, cs) ← number 2 cs
  let cs ← mark '-' cs
  let (d, cs) ← number 2 cs
  let cs ← match cs with
    | 'T' :: r => some r
    | 't' :: r => some r
    | ' ' :: r => some r
    | _ => none
  let (h, cs) ← number 2 cs
  let cs ← mark ':' cs
  let (mi, cs) ← number 2 cs
  let cs ← mark ':' cs
  let (s, cs) ← number 2 cs
  let (nanos, cs) ← readFraction cs
  let (offset, cs) ← readOffset cs
  if cs.all Text.isBlank then ofParts? y mo d h mi s nanos offset else none

/-- Reads a timestamp. -/
def read? (s : String) : Option Timestamp :=
  readChars? s.toList

end Timestamp
end Intake
