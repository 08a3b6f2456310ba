import Intake.Text.Digits
import Intake.Toml

/-!
# Writing TOML

Strings in double quotes and whole numbers in base ten, one `key = value` a line under
a header. `document` is one way to make a text of sections; whoever writes sections takes
the way as a parameter.
-/

namespace Intake.Toml

/-- One character inside double quotes. -/
def escapeChar (c : Char) : List Char :=
  if c = '"' then ['\\', '"']
  else if c = '\\' then ['\\', '\\']
  else if c = '\n' then ['\\', 'n']
  else if c = '\r' then ['\\', 'r']
  else if c = '\t' then ['\\', 't']
  else if c.toNat < 32 || c.toNat = 127 then ['\\', 'u'] ++ Text.hexPadded 4 c.toNat
  else [c]

/-- A string in double quotes. -/
def writeString (s : String) : List Char :=
  '"' :: (s.toList.flatMap escapeChar ++ ['"'])

/-- A scalar: a string, a whole number or a truth value; nothing for the other kinds. -/
def writeScalar : Toml → List Char
  | .string s => writeString s
  | .integer n => (toString n).toList
  | .boolean b => (if b then "true" else "false").toList
  | _ => []

/-- One line with a key and its value. -/
def writeEntry (e : String × Toml) : List Char :=
  e.1.toList ++ " = ".toList ++ writeScalar e.2 ++ ['\n']

/-- A header and the lines of its table. -/
def writeSection (name : String) (entries : Entries) : List Char :=
  '[' :: (name.toList ++ [']', '\n'] ++ entries.flatMap writeEntry)

/-- The names of sections, each with the entries of its table. -/
abbrev Sections := List (String × Entries)

/-- Sections one after the other, with an empty line between them. -/
def document (ss : Sections) : String :=
  String.ofList (['\n'].intercalate (ss.map fun s => writeSection s.1 s.2))

/-- A way to make a text of sections. Of some it may make none. -/
abbrev Serializer := Sections → Option String

end Intake.Toml
