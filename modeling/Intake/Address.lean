import Intake.Text.Digits

/-!
# Listen addresses

An address is four bytes or eight 16-bit groups, with a port. The readers accept the
numeric forms only; `write` gives the canonical form, in which the longest run of two
or more zero groups is shortened.
-/

namespace Intake

/-- A numeric address with a port. -/
inductive Address where
  | v4 (octets : List Nat) (port : Nat)
  | v6 (groups : List Nat) (scope : Nat) (port : Nat)
  deriving DecidableEq, Repr

namespace Address

/-- The digits at the front, at most `most` of them, read in a base. -/
def digits (value : Char → Option Nat) (base most : Nat) (cs : List Char) :
    Option (List Char × Nat × List Char) :=
  let ds := (cs.take most).takeWhile (fun c => (value c).isSome)
  if ds.isEmpty then none
  else (Text.numeralFrom value base 0 ds).map (fun n => (ds, n, cs.drop ds.length))

/-- A number of one to three digits below 256 without a zero in front. -/
def octet (cs : List Char) : Option (Nat × List Char) := do
  let (ds, n, r) ← digits Text.digit? 10 3 cs
  if 255 < n || (ds.head? == some '0' && 1 < ds.length) then none
  some (n, r)

/-- Four numbers with points between them. -/
def octets (cs : List Char) : Option (List Nat × List Char) := do
  let (a, r) ← octet cs
  let ('.' :: r) := r | none
  let (b, r) ← octet r
  let ('.' :: r) := r | none
  let (c, r) ← octet r
  let ('.' :: r) := r | none
  let (d, r) ← octet r
  some ([a, b, c, d], r)

/-- A colon, a port and the end. -/
def portAtEnd : List Char → Option Nat
  | ':' :: r => do
    let n ← Text.decimal? r
    if n ≤ 65535 then some n else none
  | _ => none

/-- Up to `most` groups with colons between them; the last two may be four octets. Also
says whether it ended with octets. -/
def groups : (most : Nat) → (first : Bool) → List Char → List Nat × Bool × List Char
  | 0, _, cs => ([], false, cs)
  | most + 1, first, cs =>
    let start : Option (List Char) :=
      if first then some cs else match cs with | ':' :: r => some r | _ => none
    match start with
    | none => ([], false, cs)
    | some r =>
      match (if 1 ≤ most then octets r else none) with
      | some ([a, b, c, d], rest) => ([a * 256 + b, c * 256 + d], true, rest)
      | _ =>
        match digits Text.hexDigit? 16 4 r with
        | some (_, n, rest) =>
          let (gs, ended, rest') := groups most false rest
          (n :: gs, ended, rest')
        | none => ([], false, cs)

/-- Eight groups, of which a run may be left out for a double colon. -/
def eightGroups (cs : List Char) : Option (List Nat × List Char) :=
  let (front, ended, r) := groups 8 true cs
  if front.length == 8 then some (front, r)
  else if ended then none
  else
    match r with
    | ':' :: ':' :: r' =>
      let (back, _, r'') := groups (8 - (front.length + 1)) true r'
      some (front ++ List.replicate (8 - front.length - back.length) 0 ++ back, r'')
    | _ => none

/-- The number after a percent sign, if there is one. -/
def scopeOf : List Char → Option (Nat × List Char)
  | '%' :: r => do
    let ds := r.takeWhile (fun c => (Text.digit? c).isSome)
    let n ← Text.decimal? ds
    if n < Nat.pow 2 32 then some (n, r.drop ds.length) else none
  | r => some (0, r)

/-- The address that a text names. -/
def read? (s : String) : Option Address :=
  match s.toList with
  | '[' :: r => do
    let (gs, r) ← eightGroups r
    let (scope, r) ← scopeOf r
    let (']' :: r) := r | none
    let port ← portAtEnd r
    some (.v6 gs scope port)
  | cs => do
    let (os, r) ← octets cs
    let port ← portAtEnd r
    some (.v4 os port)

/-! ## Writing -/

/-- The length of the run of zeros at the front. -/
def zeroRun (gs : List Nat) : Nat :=
  (gs.takeWhile (· == 0)).length

/-- The place and the length of the first longest run of zeros. -/
def longestRun (gs : List Nat) : Nat × Nat :=
  (List.range gs.length).foldl
    (fun best i =>
      let n := zeroRun (gs.drop i)
      if best.2 < n then (i, n) else best)
    (0, 0)

/-- Groups with colons between them. -/
def joinGroups (gs : List Nat) : String :=
  ":".intercalate (gs.map fun g => String.ofList (Text.hex g))

/-- Eight groups in the canonical form. -/
def writeGroups (gs : List Nat) : String :=
  let mapped := gs.take 6 == [0, 0, 0, 0, 0, 65535]
  if mapped then
    let low := gs.drop 6
    "::ffff:" ++ ".".intercalate
      ((low.flatMap fun g => [g / 256, g % 256]).map toString)
  else
    let (i, n) := longestRun gs
    if n < 2 then joinGroups gs
    else joinGroups (gs.take i) ++ "::" ++ joinGroups (gs.drop (i + n))

/-- The canonical form. -/
def write : Address → String
  | v4 os port => ".".intercalate (os.map toString) ++ ":" ++ toString port
  | v6 gs scope port =>
    "[" ++ writeGroups gs ++ (if scope == 0 then "" else "%" ++ toString scope) ++ "]:"
      ++ toString port

end Address
end Intake
