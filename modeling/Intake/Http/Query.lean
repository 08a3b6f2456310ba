import Intake.Text.Digits
import Intake.Text.Utf8

/-!
# Query strings

A query is a list of names with values, written with ampersands and equals signs between
them. Plus signs stand for blanks and `%` with two digits for a byte; a `%` without two
digits stands for itself.
-/

namespace Intake.Http.Query

/-- Plus signs become blanks. -/
def plusToBlank (b : UInt8) : UInt8 :=
  if b = 0x2B then 0x20 else b

/-- The value of a byte that is a hexadecimal digit. -/
def hexByte? (b : UInt8) : Option Nat :=
  Text.hexDigit? (Char.ofNat b.toNat)

/-- Decodes the bytes that are written with digits. -/
def percentDecode : Bytes → Bytes
  | [] => []
  | [a] => [a]
  | [a, b] => [a, b]
  | a :: b :: c :: r =>
    if a = 0x25 then
      match hexByte? b, hexByte? c with
      | some x, some y => UInt8.ofNat (x * 16 + y) :: percentDecode r
      | _, _ => a :: percentDecode (b :: c :: r)
    else a :: percentDecode (b :: c :: r)

/-- A name or a value. -/
def decode (bs : Bytes) : String :=
  Utf8.repair (percentDecode (bs.map plusToBlank))

/-- Cuts at a byte, with the current piece and the finished ones in reverse. -/
def cutFrom (mark : UInt8) (cur : Bytes) (done : List Bytes) : Bytes → List Bytes
  | [] => (cur.reverse :: done).reverse
  | b :: r =>
    if b = mark then cutFrom mark [] (cur.reverse :: done) r else cutFrom mark (b :: cur) done r

/-- One name with its value, which is empty without an equals sign. -/
def pair (bs : Bytes) : String × String :=
  (decode (bs.takeWhile (· != 0x3D)), decode ((bs.dropWhile (· != 0x3D)).drop 1))

/-- The names with their values. Empty pieces count for nothing. -/
def read (query : String) : List (String × String) :=
  ((cutFrom 0x26 [] [] (Utf8.bytesOf query)).filter (!·.isEmpty)).map pair

end Intake.Http.Query
