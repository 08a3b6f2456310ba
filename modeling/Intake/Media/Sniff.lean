import Intake.Media.Signature

/-!
# Sniffing

The media type of a file from its first bytes: a signature wins; otherwise the bytes
are text if they hold no control bytes of binary data and are UTF-8, perhaps cut inside
the last character; otherwise they are bytes of no known kind.
-/

namespace Intake.Media

/-- How many bytes are looked at. -/
def sniffLength : Nat := 512

/-- The control bytes that do not stand in texts. Tab, line feed, form feed, carriage
return and escape do. -/
def isBinaryControl (b : UInt8) : Bool :=
  let n := b.toNat
  n ≤ 0x08 || n == 0x0B || (0x0E ≤ n && n ≤ 0x1A) || (0x1C ≤ n && n ≤ 0x1F)

/-- Holds of bytes that are text as far as they go. -/
def looksLikeText (head : Bytes) : Bool :=
  (match Utf8.read head with
    | .bad _ => false
    | _ => true)
  && !head.any isBinaryControl

/-- The media type of bytes. -/
def sniff (bytes : Bytes) : String :=
  let head := bytes.take sniffLength
  match Signature.detect? head with
  | some mime => mime
  | none => if looksLikeText head then textPlainUtf8 else octetStream

end Intake.Media
