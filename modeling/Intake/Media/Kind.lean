import Intake.Text.Lines

/-!
# Media types

A media type as it is declared or detected, and the questions that are asked of it. All
but one look at the essence, the type without its parameters in lower case; whether a
type is text is read off its first letters as they stand.
-/

namespace Intake

namespace Media

/-- The type before the first semicolon, without blanks around it, in lower case. -/
def essence (mime : String) : String :=
  Text.lowerAscii (Text.trim (String.ofList (mime.toList.takeWhile (· != ';'))))

/-- Text in UTF-8. -/
def textPlainUtf8 : String := "text/plain; charset=utf-8"

/-- Bytes of no known kind. -/
def octetStream : String := "application/octet-stream"

def pdf : String := "application/pdf"

def zip : String := "application/zip"

/-- A word-processing package. -/
def docx : String := "application/vnd.openxmlformats-officedocument.wordprocessingml.document"

/-- A spreadsheet package. -/
def xlsx : String := "application/vnd.openxmlformats-officedocument.spreadsheetml.sheet"

/-- A slides package. -/
def pptx : String := "application/vnd.openxmlformats-officedocument.presentationml.presentation"

/-- Holds of the types whose letters begin with `text/`. -/
def isText (mime : String) : Bool :=
  "text/".toList.isPrefixOf mime.toList

/-- Holds of portable documents. -/
def isPdf (mime : String) : Bool :=
  essence mime == pdf

/-- Holds of word-processing and spreadsheet packages. -/
def isOoxml (mime : String) : Bool :=
  essence mime == docx || essence mime == xlsx

/-- Holds of every zip container, office packages included. -/
def isZipContainer (mime : String) : Bool :=
  isOoxml mime || essence mime == zip

end Media
end Intake
