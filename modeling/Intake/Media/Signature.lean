import Intake.Media.Kind
import Intake.Text.Utf8

/-!
# File signatures

The marks by which binary formats and some text formats are told from the first bytes of
a file. The table is in order of precedence: the first signature that a head carries
gives its media type.
-/

namespace Intake.Media

/-- A media type and the test for its mark. -/
structure Signature where
  mime : String
  found : Bytes → Bool

namespace Signature

/-- The bytes of ASCII letters. -/
def ascii (s : String) : Bytes :=
  s.toList.map (fun c => UInt8.ofNat c.toNat)

/-- Holds if the given bytes stand at an offset. -/
def at' (offset : Nat) (mark : Bytes) (head : Bytes) : Bool :=
  mark.isPrefixOf (head.drop offset)

/-- Holds if the given letters stand at an offset. -/
def textAt (offset : Nat) (mark : String) (head : Bytes) : Bool :=
  at' offset (ascii mark) head

/-- The number that four bytes write, the largest place first. -/
def bigEndian (offset : Nat) (head : Bytes) : Nat :=
  ((head.drop offset).take 4).foldl (fun n b => n * 256 + b.toNat) 0

/-- The number that four bytes write, the smallest place first. -/
def littleEndian (offset : Nat) (head : Bytes) : Nat :=
  ((head.drop offset).take 4).foldr (fun b n => n * 256 + b.toNat) 0

/-- The byte at an offset. -/
def byteAt (offset : Nat) (head : Bytes) : Nat :=
  ((head.drop offset).head?.map UInt8.toNat).getD 0

/-! ## Marks with a structure -/

/-- A class file: a version of 45 or later follows the mark. -/
def isClassFile (h : Bytes) : Bool :=
  8 ≤ h.length && at' 0 [0xca, 0xfe, 0xba, 0xbe] h && 45 ≤ bigEndian 4 h
    && 45 ≤ byteAt 6 h * 256 + byteAt 7 h

/-- A machine-code file for one or for several processors. -/
def isMachO (h : Bytes) : Bool :=
  at' 0 [0xcf, 0xfa, 0xed, 0xfe] h || at' 0 [0xce, 0xfa, 0xed, 0xfe] h
    || at' 0 [0xfe, 0xed, 0xfa, 0xcf] h || at' 0 [0xfe, 0xed, 0xfa, 0xce] h
    || (8 ≤ h.length && at' 0 [0xca, 0xfe, 0xba, 0xbe] h && bigEndian 4 h < 45)

/-- Bytecode for one kind of telephone. -/
def isDex (h : Bytes) : Bool :=
  textAt 0 "dex\n" h && 36 < h.length && byteAt 36 h == 0x70

/-- Optimised bytecode, which holds plain bytecode. -/
def isDey (h : Bytes) : Bool :=
  textAt 0 "dey\n" h && 100 < h.length && isDex ((h.drop 40).take 60)

/-- The start of a zip entry. -/
def zipEntry : Bytes := [0x50, 0x4b, 3, 4]

/-- A zip file whose first entry begins with the given letters. -/
def zipHolding (offset : Nat) (name : String) (h : Bytes) : Bool :=
  at' 0 zipEntry h && textAt offset name h

/-- A file of boxes: the first box says so and fits. -/
def isBoxed (h : Bytes) : Bool :=
  16 ≤ h.length && textAt 4 "ftyp" h && bigEndian 0 h ≤ h.length

/-- The brand of a file of boxes. -/
def majorBrand (h : Bytes) : Bytes :=
  (h.drop 8).take 4

/-- The brands that a file of boxes is compatible with. -/
def compatibleBrands (h : Bytes) : List Bytes :=
  (List.range (bigEndian 0 h / 4 - 4)).filterMap fun i =>
    let word := (h.drop (16 + 4 * i)).take 4
    if word.length == 4 then some word else none

def isHeif (h : Bytes) : Bool :=
  isBoxed h &&
    (majorBrand h == ascii "heic"
      || ((majorBrand h == ascii "mif1" || majorBrand h == ascii "msf1")
        && (compatibleBrands h).contains (ascii "heic")))

def isAvif (h : Bytes) : Bool :=
  isBoxed h &&
    (majorBrand h :: compatibleBrands h).any (fun b => b == ascii "avif" || b == ascii "avis")

/-- The brands of one kind of film. -/
def filmBrands : List String :=
  ["avc1", "dash", "iso2", "iso3", "iso4", "iso5", "iso6", "isom", "mmp4", "mp41", "mp42",
    "mp4v", "mp71", "MSNV", "NDAS", "NDSC", "NSDC", "NDSH", "NDSM", "NDSP", "NDSS", "NDXC",
    "NDXH", "NDXM", "NDXP", "NDXS", "F4V ", "F4P "]

def isMp4 (h : Bytes) : Bool :=
  textAt 4 "ftyp" h && filmBrands.any (fun b => textAt 8 b h)

def isQuickTime (h : Bytes) : Bool :=
  16 ≤ h.length
    && (textAt 4 "ftypqt  " h || textAt 4 "moov" h || textAt 4 "mdat" h || textAt 12 "mdat" h)

/-! ## Office packages -/

/-- The offset of the next zip entry at or after an offset. -/
def nextEntry (h : Bytes) (start : Nat) : Option Nat :=
  let window := (h.drop start).take 6000
  if window.isEmpty then none
  else
    ((List.range window.length).find? (fun i => at' i zipEntry window)).map (start + ·)

/-- The kind of package that holds an entry whose name starts at an offset. -/
def packageAt (h : Bytes) (offset : Nat) : Option String :=
  if textAt offset "word/" h then some docx
  else if textAt offset "xl/" h then some xlsx
  else if textAt offset "ppt/" h then some pptx
  else none

/-- The kind of an office package, from the names of its first entries. -/
def package? (h : Bytes) : Option String :=
  if !at' 0 zipEntry h then none
  else
    match packageAt h 30 with
    | some kind => some kind
    | none =>
      if textAt 30 "[Content_Types].xml" h || textAt 30 "_rels/.rels" h || textAt 30 "docProps" h
      then do
        let second ← nextEntry h (littleEndian 18 h + 49)
        let third ← nextEntry h (second + 30)
        let _ ← packageAt h (third + 30)
        let fourth ← nextEntry h (third + 30 + 26)
        packageAt h (fourth + 30)
      else none

/-! ## Other structures -/

/-- Frames that a reader skips, up to a frame with content. -/
def isZstd : (fuel : Nat) → Bytes → Bool
  | 0, _ => false
  | fuel + 1, h =>
    if at' 0 [0x28, 0xb5, 0x2f, 0xfd] h then true
    else if 8 ≤ h.length && 0x184D2A50 ≤ littleEndian 0 h && littleEndian 0 h ≤ 0x184D2A5F then
      isZstd fuel (h.drop (8 + littleEndian 4 h))
    else false

/-- An embedded font. -/
def isEmbeddedFont (h : Bytes) : Bool :=
  36 ≤ h.length && textAt 34 "LP" h
    && (at' 8 [2, 0, 1] h || at' 8 [1, 0, 0] h || at' 8 [2, 0, 2] h)

/-- Drops tabs, line ends and spaces at the front. -/
def skipSpace (h : Bytes) : Bytes :=
  h.dropWhile fun b => b == 9 || b == 10 || b == 12 || b == 13 || b == 32

/-- Drops byte-order marks at the front. -/
def skipMarks : Bytes → Bytes
  | 0xef :: 0xbb :: 0xbf :: r => skipMarks r
  | 0xfe :: 0xff :: r => skipMarks r
  | 0xff :: 0xfe :: r => skipMarks r
  | r => r

/-- Holds if the letters stand at the front, in any case. -/
def foldedPrefix (mark : String) (h : Bytes) : Bool :=
  let front := h.take mark.length
  front.length == mark.length
    && ((ascii mark).zip front).all fun (a, b) =>
      (Char.ofNat a.toNat).toLower == (Char.ofNat b.toNat).toLower

/-- The tags with which pages begin. -/
def pageTags : List String :=
  ["<!DOCTYPE HTML", "<HTML", "<HEAD", "<SCRIPT", "<IFRAME", "<H1", "<DIV", "<FONT", "<TABLE",
    "<A", "<STYLE", "<TITLE", "<B", "<BODY", "<BR", "<P", "<!--"]

def isHtml (h : Bytes) : Bool :=
  let h := skipSpace h
  pageTags.any fun tag =>
    foldedPrefix tag h &&
      match h.drop tag.length with
      | b :: _ => b == 0x20 || b == 0x3e
      | [] => false

def isXml (h : Bytes) : Bool :=
  foldedPrefix "<?xml" (skipMarks (skipSpace h))

/-! ## The table -/

/-- A mark of bytes at the front. -/
def magic (mime : String) (mark : Bytes) : Signature :=
  ⟨mime, at' 0 mark⟩

/-- A mark of letters at the front. -/
def letters (mime : String) (mark : String) : Signature :=
  ⟨mime, textAt 0 mark⟩

/-- A test that needs a least number of bytes. -/
def sized (mime : String) (least : Nat) (test : Bytes → Bool) : Signature :=
  ⟨mime, fun h => least ≤ h.length && test h⟩

/-- Programs, certificates and books. -/
def programs : List Signature := [
  magic "application/wasm" [0, 0x61, 0x73, 0x6d, 1, 0, 0, 0],
  sized "application/x-executable" 53 (at' 0 [0x7f, 0x45, 0x4c, 0x46]),
  letters "application/vnd.microsoft.portable-executable" "MZ",
  ⟨"application/java", isClassFile⟩,
  letters "application/x-llvm" "BC",
  ⟨"application/x-mach-binary", isMachO⟩,
  ⟨"application/vnd.android.dex", isDex⟩,
  ⟨"application/vnd.android.dey", isDey⟩,
  sized "application/x-x509-ca-cert" 3 (at' 0 [0x30, 0x82]),
  sized "application/x-executable" 3 (fun h =>
    at' 0 [0x64, 0x86] h || at' 0 [0x4c, 1] h || at' 0 [0, 2] h),
  sized "application/x-x509-ca-cert" 12 (textAt 0 "-----BEGIN "),
  ⟨"application/epub+zip", zipHolding 30 "mimetypeapplication/epub+zip"⟩,
  ⟨"application/x-mobipocket-ebook", textAt 60 "BOOKMOBI"⟩]

/-- Still images. -/
def images : List Signature := [
  magic "image/jpeg" [0xff, 0xd8, 0xff],
  magic "image/jp2" [0, 0, 0, 0x0c, 0x6a, 0x50, 0x20, 0x20, 0x0d, 0x0a, 0x87, 0x0a, 0],
  magic "image/png" [0x89, 0x50, 0x4e, 0x47],
  letters "image/gif" "GIF",
  ⟨"image/webp", textAt 8 "WEBP"⟩,
  ⟨"image/x-canon-cr2", fun h =>
    (at' 0 [0x49, 0x49, 0x2a, 0] h || at' 0 [0x4d, 0x4d, 0, 0x2a] h)
      && at' 8 [0x43, 0x52, 2] h⟩,
  sized "image/tiff" 10 (fun h =>
    (at' 0 [0x49, 0x49, 0x2a, 0] h || at' 0 [0x4d, 0x4d, 0, 0x2a] h)
      && byteAt 8 h != 0x43 && byteAt 9 h != 0x52),
  letters "image/bmp" "BM",
  magic "image/vnd.ms-photo" [0x49, 0x49, 0xbc],
  letters "image/vnd.adobe.photoshop" "8BPS",
  magic "image/vnd.microsoft.icon" [0, 0, 1, 0],
  ⟨"image/heif", isHeif⟩,
  ⟨"image/avif", isAvif⟩,
  ⟨"image/jxl", fun h =>
    (3 ≤ h.length && at' 0 [0xff, 0x0a] h)
      || (13 ≤ h.length
        && at' 0 [0, 0, 0, 0x0c, 0x4a, 0x58, 0x4c, 0x20, 0x0d, 0x0a, 0x87, 0x0a] h)⟩,
  sized "image/openraster" 58 (zipHolding 30 "mimetypeimage/openraster"),
  ⟨"image/vnd.djvu", fun h => textAt 0 "AT&TFORM" h && textAt 12 "DJV" h⟩]

/-- Moving images and sounds. -/
def recordings : List Signature := [
  ⟨"video/mp4", isMp4⟩,
  ⟨"video/x-m4v", textAt 4 "ftypM4V"⟩,
  ⟨"video/x-matroska", fun h =>
    (at' 0 [0x1a, 0x45, 0xdf, 0xa3, 0x93, 0x42, 0x82, 0x88] h && textAt 8 "matroska" h)
      || textAt 31 "matroska" h⟩,
  magic "video/webm" [0x1a, 0x45, 0xdf, 0xa3],
  ⟨"video/quicktime", isQuickTime⟩,
  ⟨"video/x-msvideo", fun h => textAt 0 "RIFF" h && textAt 8 "AVI" h⟩,
  magic "video/x-ms-wmv" [0x30, 0x26, 0xb2, 0x75, 0x8e, 0x66, 0xcf, 0x11, 0xa6, 0xd9],
  ⟨"video/mpeg", fun h => 4 ≤ h.length && at' 0 [0, 0, 1] h
    && 0xb0 ≤ byteAt 3 h && byteAt 3 h ≤ 0xbf⟩,
  magic "video/x-flv" [0x46, 0x4c, 0x56, 1],
  letters "audio/midi" "MThd",
  sized "audio/mpeg" 3 (fun h => textAt 0 "ID3" h || at' 0 [0xff, 0xfb] h),
  sized "audio/m4a" 11 (fun h => textAt 4 "ftypM4A" h || textAt 0 "M4A " h),
  ⟨"audio/opus", fun h => textAt 0 "OggS" h && textAt 28 "OpusHead" h⟩,
  letters "audio/ogg" "OggS",
  letters "audio/x-flac" "fLaC",
  ⟨"audio/x-wav", fun h => textAt 0 "RIFF" h && textAt 8 "WAVE" h⟩,
  sized "audio/amr" 12 (textAt 0 "#!AMR\n"),
  ⟨"audio/aac", fun h => at' 0 [0xff, 0xf1] h || at' 0 [0xff, 0xf9] h⟩,
  ⟨"audio/x-aiff", fun h => textAt 0 "FORM" h && textAt 8 "AIFF" h⟩,
  sized "audio/x-dsf" 5 (textAt 0 "DSD "),
  sized "audio/x-ape" 5 (textAt 0 "MAC ")]

/-- Fonts and office documents. -/
def documents : List Signature := [
  magic "application/font-woff" [0x77, 0x4f, 0x46, 0x46, 0, 1, 0, 0],
  magic "application/font-woff" [0x77, 0x4f, 0x46, 0x32, 0, 1, 0, 0],
  magic "application/font-sfnt" [0, 1, 0, 0, 0],
  magic "application/font-sfnt" [0x4f, 0x54, 0x54, 0x4f, 0],
  ⟨docx, fun h => package? h == some docx⟩,
  ⟨xlsx, fun h => package? h == some xlsx⟩,
  ⟨pptx, fun h => package? h == some pptx⟩,
  ⟨"application/vnd.oasis.opendocument.text", fun h =>
    zipHolding 30 "mimetype" h && textAt 50 "vnd.oasis.opendocument.text" h⟩,
  ⟨"application/vnd.oasis.opendocument.spreadsheet", fun h =>
    zipHolding 30 "mimetype" h && textAt 50 "vnd.oasis.opendocument.spreadsheet" h⟩,
  ⟨"application/vnd.oasis.opendocument.presentation", fun h =>
    zipHolding 30 "mimetype" h && textAt 50 "vnd.oasis.opendocument.presentation" h⟩]

/-- Archives and the rest of the binary formats. -/
def archives : List Signature := [
  ⟨zip, fun h =>
    at' 0 zipEntry h || at' 0 [0x50, 0x4b, 5, 6] h || at' 0 [0x50, 0x4b, 7, 8] h
      || at' 0 [0x50, 0x4b, 0x30, 0x30, 0x50, 0x4b, 3, 4] h⟩,
  ⟨"application/x-tar", textAt 257 "ustar"⟩,
  ⟨"application/vnd.rar", fun h =>
    at' 0 [0x52, 0x61, 0x72, 0x21, 0x1a, 7, 0] h || at' 0 [0x52, 0x61, 0x72, 0x21, 0x1a, 7, 1] h⟩,
  magic "application/gzip" [0x1f, 0x8b, 8],
  letters "application/x-bzip2" "BZh",
  magic "application/x-7z-compressed" [0x37, 0x7a, 0xbc, 0xaf, 0x27, 0x1c],
  magic "application/x-xz" [0xfd, 0x37, 0x7a, 0x58, 0x5a, 0],
  letters pdf "%PDF",
  ⟨"application/x-shockwave-flash", fun h => textAt 0 "CWS" h || textAt 0 "FWS" h⟩,
  letters "application/rtf" "\x7b\\rtf",
  ⟨octetStream, isEmbeddedFont⟩,
  letters "application/postscript" "%!",
  letters "application/vnd.sqlite3" "SQLi",
  magic "application/x-nintendo-nes-rom" [0x4e, 0x45, 0x53, 0x1a],
  letters "application/x-google-chrome-extension" "Cr24",
  ⟨"application/vnd.ms-cab-compressed", fun h => textAt 0 "MSCF" h || textAt 0 "ISc(" h⟩,
  letters "application/vnd.debian.binary-package" "!<arch>\ndebian-binary",
  letters "application/x-unix-archive" "!<arch>",
  ⟨"application/x-compress", fun h => at' 0 [0x1f, 0xa0] h || at' 0 [0x1f, 0x9d] h⟩,
  letters "application/x-lzip" "LZIP",
  sized "application/x-rpm" 97 (at' 0 [0xed, 0xab, 0xee, 0xdb]),
  ⟨"application/dicom", textAt 128 "DICM"⟩,
  ⟨"application/zstd", fun h => isZstd (h.length + 1) h⟩,
  magic "application/x-ole-storage" [0xd0, 0xcf, 0x11, 0xe0, 0xa1, 0xb1, 0x1a, 0xe1],
  ⟨"application/x-cpio", fun h =>
    at' 0 [0xc7, 0x71] h || at' 0 [0x71, 0xc7] h || (7 ≤ h.length && textAt 0 "070701" h)⟩]

/-- Text formats. -/
def markup : List Signature := [
  ⟨"text/html", isHtml⟩,
  ⟨"text/xml", isXml⟩,
  sized "text/x-shellscript" 3 (textAt 0 "#!")]

/-- Every signature in order of precedence. -/
def table : List Signature :=
  programs ++ images ++ recordings ++ documents ++ archives ++ markup

/-- The media type of the first signature that a head carries. -/
def detect? (h : Bytes) : Option String :=
  (table.find? (fun s => s.found h)).map Signature.mime

end Signature
end Intake.Media
