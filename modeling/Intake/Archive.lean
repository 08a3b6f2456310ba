import Intake.Archive.Inflate
import Intake.Text.Blank

/-!
# Archives

A zip archive is read from its end: the record there says where the directory is, and
the directory says where each entry is, how it is packed and how long it is. An entry is
stored or deflated. Its check sum has to fit. When a name occurs twice the last entry
of that name counts.
-/

namespace Intake

namespace Archive

/-- The number that the first `n` bytes write, the smallest place first. -/
def number (n : Nat) (bs : Bytes) : Nat :=
  (bs.take n).foldr (fun b acc => acc * 256 + b.toNat) 0

/-- How the bytes of an entry are packed. -/
inductive Packing where
  | stored
  | deflated
  | other
  deriving DecidableEq, Repr

/-- What the directory says of an entry. -/
structure Entry where
  name : String
  packing : Packing
  /-- The bytes cannot be read without a password. -/
  locked : Bool
  checksum : Nat
  packedSize : Nat
  size : Nat
  /-- Where the entry begins. -/
  offset : Nat
  deriving DecidableEq, Repr

end Archive

/-- An archive: its bytes and its directory. -/
structure Archive where
  bytes : Bytes
  entries : List Archive.Entry
  deriving DecidableEq, Repr

namespace Archive

/-! ## The directory -/

/-- The length of the record at the end without its comment. -/
def tailSize : Nat := 22

/-- Where the record at the end begins, searched from the end on: `pos` is the number of
bytes before those still to be looked at, and `found` is the last place seen. -/
def lastTail (pos : Nat) (found : Option (Nat × Bytes)) : Bytes → Option (Nat × Bytes)
  | [] => found
  | b :: bs =>
    let here := b :: bs
    let isTail := b == 0x50 && [0x4b, 5, 6].isPrefixOf bs && tailSize ≤ here.length
    lastTail (pos + 1) (if isTail then some (pos, here) else found) bs

/-- A name as it is stored; bytes that are no text are replaced. -/
def nameOf (bs : Bytes) : String := Utf8.repair bs

/-- Reads `n` directory entries; the archive begins `shift` bytes into the file. -/
def readEntries (shift : Nat) : Nat → Bytes → Option (List Entry)
  | 0, _ => some []
  | n + 1, bs =>
    if 46 ≤ bs.length && number 4 bs = 0x02014b50 then
      let nameLength := number 2 (bs.drop 28)
      let extraLength := number 2 (bs.drop 30)
      let commentLength := number 2 (bs.drop 32)
      let entry := {
        name := nameOf ((bs.drop 46).take nameLength)
        packing := match number 2 (bs.drop 10) with
          | 0 => .stored
          | 8 => .deflated
          | _ => .other
        locked := number 2 (bs.drop 8) % 2 == 1
        checksum := number 4 (bs.drop 16)
        packedSize := number 4 (bs.drop 20)
        size := number 4 (bs.drop 24)
        offset := number 4 (bs.drop 42) + shift }
      let length := 46 + nameLength + extraLength + commentLength
      if length ≤ bs.length then (readEntries shift n (bs.drop length)).map (entry :: ·)
      else none
    else none

/-- Reads an archive. -/
def read? (bs : Bytes) : Option Archive := do
  let (pos, tail) ← lastTail 0 none bs
  let commentLength := number 2 (tail.drop 20)
  let size := number 4 (tail.drop 12)
  let start := number 4 (tail.drop 16)
  if tailSize + commentLength ≤ tail.length && number 2 (tail.drop 4) == number 2 (tail.drop 6)
      && size + start ≤ pos then
    let shift := pos - (size + start)
    let entries ← readEntries shift (number 2 (tail.drop 8)) (bs.drop (shift + start))
    some { bytes := bs, entries }
  else none

/-! ## Entries -/

/-- One bit of the check sum. -/
def checksumBit (n : Nat) : Nat :=
  if n % 2 = 1 then (n / 2) ^^^ 0xEDB88320 else n / 2

/-- One byte of the check sum. -/
def checksumByte (acc : Nat) (b : UInt8) : Nat :=
  checksumBit (checksumBit (checksumBit (checksumBit (checksumBit (checksumBit
    (checksumBit (checksumBit (acc ^^^ b.toNat))))))))

/-- The cyclic check sum of 32 bits. -/
def checksum (bs : Bytes) : Nat :=
  bs.foldl checksumByte 0xFFFFFFFF ^^^ 0xFFFFFFFF

/-- Unpacks the bytes of an entry. -/
def unpack? (packing : Packing) (bs : Bytes) : Option Bytes :=
  match packing with
  | .stored => some bs
  | .deflated => Inflate.inflate? bs
  | .other => none

/-- The content of an entry. -/
def content? (a : Archive) (e : Entry) : Option Bytes := do
  let header := a.bytes.drop e.offset
  if !e.locked && 30 ≤ header.length && number 4 header = 0x04034b50 then
    let start := 30 + number 2 (header.drop 26) + number 2 (header.drop 28)
    let content ← unpack? e.packing ((header.drop start).take e.packedSize)
    if checksum content = e.checksum then some content else none
  else none

/-- The last entry that a test picks. -/
def findLast? (a : Archive) (p : Entry → Bool) : Option Entry :=
  a.entries.reverse.find? p

/-- The last entry of a name. -/
def entry? (a : Archive) (name : String) : Option Entry :=
  a.findLast? (fun e => e.name == name)

/-- The last entry of the first name that is the given one but for the case of its
letters. -/
def entryIgnoringCase? (a : Archive) (name : String) : Option Entry :=
  match a.entries.find? (fun e => Text.lowerAscii e.name == Text.lowerAscii name) with
  | some e => a.entry? e.name
  | none => none

end Archive
end Intake
