import Intake.Media.Header
import Intake.Text.Charset
import Intake.Text.Quoted

/-!
# Forms in parts

A form is a list of fields, written one after the other between lines with a boundary.
Each field has headers of its own, an empty line and a content. Reading gives the fields
up to the first fault, and the fault if there is one. `write` is the other direction. How a
content becomes a text is up to a decoder that whoever asks for the text brings along.
-/

namespace Intake.Http

/-- What is wrong with the body of a form. -/
inductive FormError where
  /-- The body is longer than the service takes. -/
  | tooLong
  /-- The body ends, or goes on in another way, where a boundary or a header should be. -/
  | incomplete
  | badHeaders
  /-- No boundary follows the content of a field. -/
  | incompleteField (name : Option String)
  deriving DecidableEq, Repr

/-- The wording. -/
def FormError.message : FormError → String
  | tooLong => "failed to read stream"
  | incomplete => "incomplete multipart stream"
  | badHeaders => "failed to read headers"
  | incompleteField name =>
    "field " ++ Text.quoted (name.getD "<unknown>") ++ " received with incomplete data"

/-- One field of a form. -/
structure Field where
  name : Option String
  fileName : Option String
  type : Option Media.Header
  content : Bytes
  deriving DecidableEq, Repr

/-- A way to make a text of the content of a field, by the type of the field. -/
abbrev Decoder := Option Media.Header → Bytes → String

/-- The decoder that knows the encodings of `Text.Charset`. A name of any other counts for
nothing. -/
def Decoder.named : Decoder := fun type content =>
  let label := type.bind (·.parameter? Media.Header.charset)
  ((label.bind Text.Charset.ofLabel?).getD .utf8).decode content

/-- The content as text. -/
def Field.text (decode : Decoder) (f : Field) : String :=
  decode f.type f.content

/-- The fields of a form, as far as they can be read. -/
structure Form where
  fields : List Field
  /-- What follows the fields in place of the end of the form. -/
  fault : Option FormError
  deriving DecidableEq, Repr

namespace Form

/-! ## Cutting -/

def crlf : Bytes := [0x0D, 0x0A]

/-- The line that stands before each field, without its end. -/
def delimiter (boundary : Bytes) : Bytes :=
  [0x2D, 0x2D] ++ boundary

/-- What stands before and after the first occurrence of a mark, with what was seen before
in reverse. -/
def cutAt? (mark seen : Bytes) : Bytes → Option (Bytes × Bytes)
  | [] => none
  | b :: r =>
    if mark.isPrefixOf (b :: r) then some (seen.reverse, (b :: r).drop mark.length)
    else cutAt? mark (b :: seen) r

/-- What follows a mark at the front. -/
def after? (mark : Bytes) (bs : Bytes) : Option Bytes :=
  if mark.isPrefixOf bs then some (bs.drop mark.length) else none

/-! ## The headers of a field -/

/-- Holds of the bytes that may stand in a header's name. -/
def isNameByte (b : UInt8) : Bool :=
  b.toNat < 0x80 && Media.Header.isWord (Char.ofNat b.toNat)

/-- Holds of the bytes that may stand in a header's value. -/
def isValueByte (b : UInt8) : Bool :=
  b = 0x09 || (0x20 ≤ b.toNat && b.toNat != 0x7F)

/-- Holds of blanks in a line. -/
def isPad (b : UInt8) : Bool :=
  b = 0x20 || b = 0x09

/-- What follows the end of a line. -/
def lineEnd? : Bytes → Option Bytes
  | 0x0D :: 0x0A :: r => some r
  | 0x0A :: r => some r
  | _ => none

/-- The most headers of a field. -/
def maxHeaders : Nat := 32

/-- Reads headers up to an empty line. Names are in lower case, values without the blanks
around them. -/
def readHeaders? : (room : Nat) → Bytes → Option (List (Bytes × Bytes))
  | room, bs =>
    if (lineEnd? bs).isSome then some []
    else
      let name := bs.takeWhile isNameByte
      match room, bs.dropWhile isNameByte with
      | room + 1, 0x3A :: r =>
        let value := (r.dropWhile isPad).takeWhile isValueByte
        match lineEnd? ((r.dropWhile isPad).dropWhile isValueByte) with
        | some r =>
          if name.isEmpty then none
          else
            (readHeaders? room r).map fun hs =>
              (name.map fun b => UInt8.ofNat (Char.ofNat b.toNat).toLower.toNat,
                (value.reverse.dropWhile isPad).reverse) :: hs
        | none => none
      | _, _ => none

/-- The value of a header; of several of one name the last counts. -/
def header? (hs : List (Bytes × Bytes)) (name : String) : Option Bytes :=
  (hs.reverse.find? (·.1 == Utf8.bytesOf name)).map Prod.snd

/-- Holds of the bytes in front of an attribute. -/
def isSeparator (b : UInt8) : Bool :=
  b = 0x20 || b = 0x09 || b = 0x0A || b = 0x0C || b = 0x0D || b = 0x3B

/-- The value of an attribute: up to the next quote after a quote, else up to a semicolon. -/
def attributeValue? : Bytes → Option Bytes
  | 0x22 :: r => if r.contains 0x22 then some (r.takeWhile (· != 0x22)) else none
  | r => some (r.takeWhile (· != 0x3B))

/-- The value of the first attribute with a mark in front of its value. A mark inside a
longer name is passed over with all of that name; `before` is the byte in front of the
rest. -/
def attributeFrom? (mark : Bytes) (before : UInt8) : Bytes → Option Bytes
  | [] => none
  | b :: r =>
    if mark.isPrefixOf (b :: r) then
      if isSeparator before then attributeValue? (r.drop (mark.length - 1))
      else attributeFrom? mark 0x20 (r.drop (mark.length - 1))
    else attributeFrom? mark b r
  termination_by bs => bs.length
  decreasing_by all_goals (simp only [List.length_drop, List.length_cons]; omega)

/-- The value of an attribute of a header, if it is text. -/
def attribute? (name : String) (value : Bytes) : Option String :=
  (attributeFrom? (Utf8.bytesOf name ++ [0x3D]) 0x20 value).bind Utf8.text?

/-! ## Reading -/

/-- A field of its headers and its content. -/
def fieldOf (hs : List (Bytes × Bytes)) (content : Bytes) : Field where
  name := (header? hs "content-disposition").bind (attribute? "name")
  fileName := (header? hs "content-disposition").bind (attribute? "filename")
  type := ((header? hs "content-type").bind Utf8.text?).bind Media.Header.read?
  content := content

/-- How the body goes on after a boundary. -/
inductive Step where
  | finished
  | fault (error : FormError)
  /-- A field, and what follows the line end before the next boundary. -/
  | field (field : Field) (rest : Bytes)

/-- Reads what follows a boundary. -/
def step (boundary : Bytes) (bs : Bytes) : Step :=
  match bs with
  | 0x2D :: 0x2D :: _ => .finished
  | _ :: _ :: _ =>
    match after? crlf (bs.dropWhile isPad) with
    | none => .fault .incomplete
    | some r =>
      match cutAt? (crlf ++ crlf) [] r with
      | none => .fault .incomplete
      | some (block, r) =>
        match readHeaders? maxHeaders (block ++ crlf ++ crlf) with
        | none => .fault .badHeaders
        | some hs =>
          match cutAt? (crlf ++ delimiter boundary) [] r with
          | none => .fault (.incompleteField (fieldOf hs []).name)
          | some (content, rest) => .field (fieldOf hs content) rest
  | _ => .fault .incomplete

/-- Reads fields, with those so far in reverse. -/
def readFrom (boundary : Bytes) (done : List Field) : (fuel : Nat) → Bytes → Form
  | 0, _ => { fields := done.reverse, fault := some .incomplete }
  | fuel + 1, bs =>
    match step boundary bs with
    | .finished => { fields := done.reverse, fault := none }
    | .fault e => { fields := done.reverse, fault := some e }
    | .field f rest => readFrom boundary (f :: done) fuel rest

/-- Reads a body. What stands before the first boundary and after the last one counts for
nothing. A field takes more than one byte, so the length of the body bounds their number. -/
def read (boundary : String) (body : Bytes) : Form :=
  let boundary := Utf8.bytesOf boundary
  match cutAt? (delimiter boundary) [] body with
  | none => { fields := [], fault := some .incomplete }
  | some (_, r) => readFrom boundary [] (body.length + 1) r

/-- Reads a body of at most `limit` bytes; of a longer one nothing is read. -/
def readWithin (limit : Nat) (boundary : String) (body : Bytes) : Form :=
  if limit < body.length then { fields := [], fault := some .tooLong } else read boundary body

/-! ## Writing -/

/-- A field as it is to be written. -/
structure Part where
  name : Option String := none
  fileName : Option String := none
  type : Option String := none
  content : Bytes

/-- An attribute with its value between quotes. -/
def writeAttribute (name : String) : Option String → String
  | some v => "; " ++ name ++ "=\"" ++ v ++ "\""
  | none => ""

/-- One field after its boundary. -/
def writePart (boundary : String) (p : Part) : Bytes :=
  Utf8.bytesOf ("--" ++ boundary ++ "\r\nContent-Disposition: form-data"
      ++ writeAttribute "name" p.name ++ writeAttribute "filename" p.fileName ++ "\r\n"
      ++ (match p.type with
        | some t => "Content-Type: " ++ t ++ "\r\n"
        | none => "")
      ++ "\r\n")
    ++ p.content ++ crlf

/-- A whole body. -/
def write (boundary : String) (parts : List Part) : Bytes :=
  parts.flatMap (writePart boundary) ++ Utf8.bytesOf ("--" ++ boundary ++ "--\r\n")

end Form
end Intake.Http
