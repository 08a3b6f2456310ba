import Intake.Text.Blank
import Intake.Text.Utf8

/-!
# Encodings of text

Text that comes with the name of its encoding. A byte-order mark in front says more than
the name and is no part of the text; what is not text is replaced by U+FFFD.
-/

namespace Intake.Text

/-- The encodings. -/
inductive Charset where
  | utf8
  | utf16be
  | utf16le
  /-- One byte a character: Latin letters, with typographic marks in place of the second
  row of controls. -/
  | windows1252
  deriving DecidableEq, Repr

namespace Charset

/-- The names of the encodings, in lower case. -/
def labels : Charset → List String
  | utf8 => ["unicode-1-1-utf-8", "unicode11utf8", "unicode20utf8", "utf-8", "utf8",
      "x-unicode20utf8"]
  | utf16be => ["unicodefffe", "utf-16be"]
  | utf16le => ["csunicode", "iso-10646-ucs-2", "ucs-2", "unicode", "unicodefeff", "utf-16",
      "utf-16le"]
  | windows1252 => ["ansi_x3.4-1968", "ascii", "cp1252", "cp819", "csisolatin1", "ibm819",
      "iso-8859-1", "iso-ir-100", "iso8859-1", "iso88591", "iso_8859-1", "iso_8859-1:1987", "l1",
      "latin1", "us-ascii", "windows-1252", "x-cp1252"]

/-- The encoding of a name, in letters of either case and with or without blanks around it. -/
def ofLabel? (label : String) : Option Charset :=
  let label := lowerAscii (trim label)
  [utf8, utf16be, utf16le, windows1252].find? fun c => c.labels.contains label

/-- The byte-order mark in front of some bytes: the encoding, and what follows the mark. -/
def mark? : Bytes → Option (Charset × Bytes)
  | 0xEF :: 0xBB :: 0xBF :: r => some (utf8, r)
  | 0xFE :: 0xFF :: r => some (utf16be, r)
  | 0xFF :: 0xFE :: r => some (utf16le, r)
  | _ => none

/-- The marks that stand in place of the second row of controls. -/
def marks1252 : List Nat :=
  [0x20AC, 0x81, 0x201A, 0x192, 0x201E, 0x2026, 0x2020, 0x2021, 0x2C6, 0x2030, 0x160, 0x2039,
    0x152, 0x8D, 0x17D, 0x8F, 0x90, 0x2018, 0x2019, 0x201C, 0x201D, 0x2022, 0x2013, 0x2014,
    0x2DC, 0x2122, 0x161, 0x203A, 0x153, 0x9D, 0x17E, 0x178]

/-- The character of one byte. -/
def char1252 (b : UInt8) : Char :=
  let n := b.toNat
  if 0x80 ≤ n && n < 0xA0 then Char.ofNat ((marks1252[n - 0x80]?).getD n) else Char.ofNat n

/-- Bytes in pairs; a last one that stands alone gives nothing. -/
def units (value : UInt8 → UInt8 → Nat) (done : List (Option Nat)) : Bytes → List (Option Nat)
  | [] => done.reverse
  | [_] => (none :: done).reverse
  | a :: b :: r => units value (some (value a b) :: done) r

/-- The characters of 16-bit units. The first half of a pair is kept until the second one is
seen; a half that stands alone is replaced, and so is what is no unit. -/
def joinUnits (half : Option Nat) (done : List Char) : List (Option Nat) → List Char
  | [] => (if half.isSome then '\uFFFD' :: done else done).reverse
  | none :: _ => ('\uFFFD' :: done).reverse
  | some u :: r =>
    let isFirst := 0xD800 ≤ u && u < 0xDC00
    let isSecond := 0xDC00 ≤ u && u < 0xE000
    match half with
    | some h =>
      if isSecond then
        joinUnits none (Char.ofNat (0x10000 + (h - 0xD800) * 1024 + (u - 0xDC00)) :: done) r
      else if isFirst then joinUnits (some u) ('\uFFFD' :: done) r
      else joinUnits none (Char.ofNat u :: '\uFFFD' :: done) r
    | none =>
      if isFirst then joinUnits (some u) done r
      else if isSecond then joinUnits none ('\uFFFD' :: done) r
      else joinUnits none (Char.ofNat u :: done) r

/-- The text of bytes without a byte-order mark. -/
def decodeBare (c : Charset) (bs : Bytes) : String :=
  match c with
  | utf8 => Utf8.repair bs
  | utf16be =>
    String.ofList (joinUnits none [] (units (fun a b => a.toNat * 256 + b.toNat) [] bs))
  | utf16le =>
    String.ofList (joinUnits none [] (units (fun a b => b.toNat * 256 + a.toNat) [] bs))
  | windows1252 => String.ofList (bs.map char1252)

/-- The text of some bytes. -/
def decode (c : Charset) (bs : Bytes) : String :=
  match mark? bs with
  | some (c, r) => c.decodeBare r
  | none => c.decodeBare bs

end Charset
end Intake.Text
