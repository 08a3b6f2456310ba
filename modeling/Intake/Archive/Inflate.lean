import Intake.Text.Utf8

/-!
# Inflate

Decompression of deflated data. The data is a row of blocks of bits. A block is either
stored as it is or coded: each code word stands for one byte, for the end of the block,
or for a stretch of the output so far that is copied. The code words are given by their
lengths alone, shorter words and smaller symbols first.
-/

namespace Intake.Archive

/-- Bits, the first first. -/
abbrev Bits := List Bool

namespace Bits

/-- The bits of a byte, the lowest first. -/
def ofByte (b : UInt8) : Bits :=
  (List.range 8).map fun i => b.toNat / Nat.pow 2 i % 2 == 1

/-- The bits of a byte list. -/
def ofBytes (bs : Bytes) : Bits :=
  bs.flatMap ofByte

/-- The number that the first `n` bits write, the lowest first, and the rest. -/
def number? : Nat → Bits → Option (Nat × Bits)
  | 0, bits => some (0, bits)
  | _ + 1, [] => none
  | n + 1, b :: bits =>
    match number? n bits with
    | some (v, rest) => some (2 * v + b.toNat, rest)
    | none => none

end Bits

/-- A code whose words are given by their lengths. -/
structure PrefixCode where
  /-- How many words there are of each length, from one on. -/
  counts : List Nat
  /-- The symbols, those of shorter words first. -/
  symbols : Array Nat
  deriving Repr

namespace PrefixCode

/-- The longest a word can be. -/
def longest : Nat := 15

/-- The share of the words of a set of lengths, in parts of the longest words. -/
def share (lengths : List Nat) : Nat :=
  lengths.foldl (fun total l => if l = 0 then total else total + Nat.pow 2 (longest - l)) 0

/-- The code for a list of lengths, one a symbol; zero marks a symbol that is not used.
The words have to use up all of the space, unless at most one symbol is used. -/
def ofLengths? (lengths : List Nat) : Option PrefixCode :=
  let used := lengths.countP (· != 0)
  if share lengths = Nat.pow 2 longest || (used ≤ 1 && share lengths ≤ Nat.pow 2 longest) then
    let numbered := lengths.zipIdx
    let ofLength (l : Nat) := (numbered.filter (·.1 == l)).map Prod.snd
    let groups := (List.range longest).map fun i => ofLength (i + 1)
    some { counts := groups.map List.length, symbols := groups.flatten.toArray }
  else none

/-- Reads one word. Of the length at hand the words begin at `first` and the symbols at
`index`; the bits so far write `word`. -/
def readFrom (symbols : Array Nat) (first index word : Nat) :
    List Nat → Bits → Option (Nat × Bits)
  | n :: counts, b :: bits =>
    let word := 2 * word + b.toNat
    if word < first + n then
      match symbols[index + (word - first)]? with
      | some s => some (s, bits)
      | none => none
    else readFrom symbols (2 * (first + n)) (index + n) word counts bits
  | _, _ => none

/-- Reads one word: its symbol and the bits after it. -/
def read? (code : PrefixCode) (bits : Bits) : Option (Nat × Bits) :=
  readFrom code.symbols 0 0 0 code.counts bits

end PrefixCode

namespace Inflate

/-- The two codes of a block: for bytes and lengths, and for distances. -/
structure Codes where
  main : PrefixCode
  distance : PrefixCode

/-- The lengths of the words in a block that brings no code of its own. -/
def fixedLengths : List Nat :=
  List.replicate 144 8 ++ List.replicate 112 9 ++ List.replicate 24 7 ++ List.replicate 8 8

/-- The codes of a block that brings none of its own. -/
def fixedCodes? : Option Codes := do
  some {
    main := ← PrefixCode.ofLengths? fixedLengths
    distance := ← PrefixCode.ofLengths? (List.replicate 32 5) }

/-- The least value of each symbol and the number of bits that add to it. -/
abbrev Steps := List (Nat × Nat)

/-- The lengths of copied stretches. -/
def lengthSteps : Steps := [
  (3, 0), (4, 0), (5, 0), (6, 0), (7, 0), (8, 0), (9, 0), (10, 0), (11, 1), (13, 1), (15, 1),
  (17, 1), (19, 2), (23, 2), (27, 2), (31, 2), (35, 3), (43, 3), (51, 3), (59, 3), (67, 4),
  (83, 4), (99, 4), (115, 4), (131, 5), (163, 5), (195, 5), (227, 5), (258, 0)]

/-- The distances back to copied stretches. -/
def distanceSteps : Steps := [
  (1, 0), (2, 0), (3, 0), (4, 0), (5, 1), (7, 1), (9, 2), (13, 2), (17, 3), (25, 3), (33, 4),
  (49, 4), (65, 5), (97, 5), (129, 6), (193, 6), (257, 7), (385, 7), (513, 8), (769, 8),
  (1025, 9), (1537, 9), (2049, 10), (3073, 10), (4097, 11), (6145, 11), (8193, 12),
  (12289, 12), (16385, 13), (24577, 13)]

/-- The value of a symbol with the bits that add to it. -/
def valueOf? (steps : Steps) (symbol : Nat) (bits : Bits) : Option (Nat × Bits) := do
  let (base, extra) ← steps[symbol]?
  let (n, rest) ← Bits.number? extra bits
  some (base + n, rest)

/-- Copies a stretch from before the end, byte by byte, so that it may overlap itself. -/
def copyBack (distance : Nat) : Nat → Array UInt8 → Array UInt8
  | 0, out => out
  | n + 1, out => copyBack distance n (out.push ((out[out.size - distance]?).getD 0))

/-- The symbol that ends a block. -/
def endOfBlock : Nat := 256

/-- Reads the words of a block. Each takes at least one bit, so `fuel` bits suffice. -/
def readWords (codes : Codes) : (fuel : Nat) → Bits → Array UInt8 →
    Option (Array UInt8 × Bits)
  | 0, _, _ => none
  | fuel + 1, bits, out =>
    match codes.main.read? bits with
    | none => none
    | some (symbol, bits) =>
      if symbol < endOfBlock then readWords codes fuel bits (out.push (UInt8.ofNat symbol))
      else if symbol = endOfBlock then some (out, bits)
      else do
        let (length, bits) ← valueOf? lengthSteps (symbol - 257) bits
        let (symbol, bits) ← codes.distance.read? bits
        let (distance, bits) ← valueOf? distanceSteps symbol bits
        if distance ≤ out.size then readWords codes fuel bits (copyBack distance length out)
        else none

/-- The order in which the lengths of the words for lengths are given. -/
def lengthOrder : List Nat :=
  [16, 17, 18, 0, 8, 7, 9, 6, 10, 5, 11, 4, 12, 3, 13, 2, 14, 1, 15]

/-- Reads on with `n` numbers of `width` bits each, those so far in reverse. -/
def numbersFrom? (width : Nat) (done : List Nat) : Nat → Bits → Option (List Nat × Bits)
  | 0, bits => some (done.reverse, bits)
  | n + 1, bits =>
    match Bits.number? width bits with
    | some (v, bits) => numbersFrom? width (v :: done) n bits
    | none => none

/-- Numbers of `width` bits each. -/
def numbers? (width n : Nat) (bits : Bits) : Option (List Nat × Bits) :=
  numbersFrom? width [] n bits

/-- Reads `total` lengths of words, those so far in reverse. A word stands for a length,
or repeats the last one, or a zero, a number of times. -/
def readLengths (code : PrefixCode) (total : Nat) : (fuel : Nat) → Bits → List Nat →
    Option (List Nat × Bits)
  | 0, _, _ => none
  | fuel + 1, bits, done =>
    if total ≤ done.length then
      if done.length = total then some (done.reverse, bits) else none
    else do
      let (symbol, bits) ← code.read? bits
      if symbol < 16 then readLengths code total fuel bits (symbol :: done)
      else if symbol = 16 then
        match done with
        | [] => none
        | last :: _ =>
          let (n, bits) ← Bits.number? 2 bits
          readLengths code total fuel bits (List.replicate (3 + n) last ++ done)
      else if symbol = 17 then
        let (n, bits) ← Bits.number? 3 bits
        readLengths code total fuel bits (List.replicate (3 + n) 0 ++ done)
      else
        let (n, bits) ← Bits.number? 7 bits
        readLengths code total fuel bits (List.replicate (11 + n) 0 ++ done)

/-- Reads the codes that a block brings. -/
def ownCodes? (bits : Bits) : Option (Codes × Bits) := do
  let (mains, bits) ← Bits.number? 5 bits
  let (distances, bits) ← Bits.number? 5 bits
  let (given, bits) ← Bits.number? 4 bits
  let (widths, bits) ← numbers? 3 (given + 4) bits
  let pairs := lengthOrder.zip widths
  let widthOf (symbol : Nat) := ((pairs.find? (·.1 == symbol)).map Prod.snd).getD 0
  let code ← PrefixCode.ofLengths? ((List.range 19).map widthOf)
  let total := mains + 257 + (distances + 1)
  let (lengths, bits) ← readLengths code total (total + 1) bits []
  let main ← PrefixCode.ofLengths? (lengths.take (mains + 257))
  let distance ← PrefixCode.ofLengths? (lengths.drop (mains + 257))
  some ({ main, distance }, bits)

/-- Reads a stored block: its length and the complement of it, then the bytes. -/
def readStored (bits : Bits) (out : Array UInt8) : Option (Array UInt8 × Bits) := do
  let bits := bits.drop (bits.length % 8)
  let (length, bits) ← Bits.number? 16 bits
  let (complement, bits) ← Bits.number? 16 bits
  if length + complement = 0xFFFF then
    let (bytes, bits) ← numbers? 8 length bits
    some (out ++ (bytes.map UInt8.ofNat).toArray, bits)
  else none

/-- Reads blocks up to the last one. Each takes at least three bits. -/
def readBlocks : (fuel : Nat) → Bits → Array UInt8 → Option (Array UInt8)
  | 0, _, _ => none
  | fuel + 1, bits, out => do
    let (last, bits) ← Bits.number? 1 bits
    let (kind, bits) ← Bits.number? 2 bits
    let (out, bits) ←
      match kind with
      | 0 => readStored bits out
      | 1 => (fixedCodes?).bind fun codes => readWords codes (bits.length + 1) bits out
      | 2 => (ownCodes? bits).bind fun (codes, bits) =>
          readWords codes (bits.length + 1) bits out
      | _ => none
    if last = 1 then some out else readBlocks fuel bits out

/-- The bytes behind deflated data. -/
def inflate? (bs : Bytes) : Option Bytes :=
  let bits := Bits.ofBytes bs
  (readBlocks (bits.length + 1) bits #[]).map Array.toList

end Inflate
end Intake.Archive
