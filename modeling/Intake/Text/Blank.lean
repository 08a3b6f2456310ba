/-!
# Blank characters

The characters that count as white space, and trimming. `trim` drops them from
both ends of a text; a text is blank when nothing is left.
-/

namespace Intake.Text

/-- The white space property: the ASCII blanks, next line, the no-break space and
the wide and narrow spaces of the other scripts, and the two separators. -/
def isBlank (c : Char) : Bool :=
  let n := c.toNat
  (9 ≤ n && n ≤ 13) || n == 0x20 || n == 0x85 || n == 0xA0 || n == 0x1680
    || (0x2000 ≤ n && n ≤ 0x200A) || n == 0x2028 || n == 0x2029 || n == 0x202F
    || n == 0x205F || n == 0x3000

/-- Drops the blanks at both ends. -/
def trimChars (cs : List Char) : List Char :=
  ((cs.dropWhile isBlank).reverse.dropWhile isBlank).reverse

/-- Drops the blanks at both ends. -/
def trim (s : String) : String :=
  String.ofList (trimChars s.toList)

/-- Holds of the texts that trim to nothing. -/
def blank (s : String) : Bool :=
  s.toList.all isBlank

/-- Lower case on the ASCII letters; every other character stays. -/
def lowerAscii (s : String) : String :=
  String.ofList (s.toList.map Char.toLower)

end Intake.Text
