import Intake.Text.Blank
import Intake.Text.Digits

/-!
# Identifiers

The 36-character form of a 128-bit number, in which new ids are handed out, and the
choice of a session's id: the caller's, trimmed, or a new one if that leaves nothing.
-/

namespace Intake.Identifier

/-- The grouped hexadecimal form of a 128-bit number. -/
def grouped (n : Nat) : String :=
  let ds := Text.hexPadded 32 n
  String.ofList (ds.take 8 ++ ['-'] ++ (ds.drop 8).take 4 ++ ['-'] ++ (ds.drop 12).take 4 ++ ['-']
    ++ (ds.drop 16).take 4 ++ ['-'] ++ ds.drop 20)

/-- The id with a given serial number: the free 122 bits of a version 4 id hold the
serial number, so different numbers below 2 ^ 122 give different ids. -/
def fresh (serial : Nat) : String :=
  let low := serial % Nat.pow 2 62
  let mid := serial / Nat.pow 2 62 % Nat.pow 2 12
  let high := serial / Nat.pow 2 74 % Nat.pow 2 48
  grouped (high * Nat.pow 2 80 + (4 * Nat.pow 2 12 + mid) * Nat.pow 2 64 + (2 * Nat.pow 2 62 + low))

/-- The supplied session id without the blanks around it, or the new one. -/
def resolve (supplied : Option String) (new : String) : String :=
  match supplied with
  | some s =>
    let id := Text.trim s
    if id.isEmpty then new else id
  | none => new

end Intake.Identifier
