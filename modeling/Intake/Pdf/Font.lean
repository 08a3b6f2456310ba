import Intake.Pdf.Value

/-!
# Fonts

What is known of a font: how wide each character code is, in thousandths of the size,
and which character it shows. Where a font has no widths of its own, those of the
common sans-serif face stand in; codes are those of the Western code page.
-/

namespace Intake.Pdf

/-- A font. -/
structure Font where
  /-- The first code with a width of its own. -/
  first : Nat
  widths : List Rat

namespace Font

/-- The widths of the codes from 32 to 126. -/
def lowWidths : List Nat := [
  278, 278, 355, 556, 556, 889, 667, 191, 333, 333, 389, 584, 278, 333, 278, 278, 556, 556, 556,
  556, 556, 556, 556, 556, 556, 556, 278, 278, 584, 584, 584, 556, 1015, 667, 667, 722, 722, 667,
  611, 778, 722, 278, 500, 667, 556, 833, 722, 778, 667, 778, 722, 667, 611, 722, 667, 944, 667,
  667, 611, 278, 278, 278, 469, 556, 333, 556, 556, 500, 556, 556, 278, 556, 556, 222, 222, 500,
  222, 833, 556, 556, 556, 556, 333, 500, 278, 556, 500, 722, 500, 500, 500, 334, 260, 334, 584]

/-- The widths of the codes from 128 to 255. -/
def highWidths : List Nat := [
  556, 350, 222, 556, 333, 1000, 556, 556, 333, 1000, 667, 333, 1000, 350, 611, 350, 350, 222,
  222, 333, 333, 350, 556, 1000, 333, 1000, 500, 333, 944, 350, 500, 667, 278, 333, 556, 556, 556,
  556, 260, 556, 333, 737, 370, 556, 584, 333, 737, 333, 400, 584, 333, 333, 333, 556, 537, 278,
  333, 333, 365, 556, 834, 834, 834, 611, 667, 667, 667, 667, 667, 667, 1000, 722, 667, 667, 667,
  667, 278, 278, 278, 278, 722, 722, 778, 778, 778, 778, 778, 584, 778, 722, 722, 722, 722, 667,
  667, 611, 556, 556, 556, 556, 556, 556, 889, 500, 556, 556, 556, 556, 278, 278, 278, 278, 556,
  556, 556, 556, 556, 556, 556, 584, 611, 556, 556, 556, 556, 500, 556, 500]

/-- The width of a code in the common face. -/
def commonWidth (code : Nat) : Nat :=
  if code < 32 then 0
  else if code < 127 then (lowWidths[code - 32]?).getD 0
  else if code < 128 then 350
  else (highWidths[code - 128]?).getD 0

/-- The width of a code. -/
def width (f : Font) (code : Nat) : Rat :=
  if code < f.first then (commonWidth code : Rat)
  else (f.widths[code - f.first]?).getD (commonWidth code : Rat)

/-- The characters of the codes from 128 to 159; a code without one shows a bullet. -/
def westernHigh : List Char :=
  ['€', '•', '‚', 'ƒ', '„', '…', '†', '‡', 'ˆ', '‰', 'Š', '‹', 'Œ', '•', 'Ž', '•',
    '•', '‘', '’', '“', '”', '•', '–', '—', '˜', '™', 'š', '›', 'œ', '•', 'ž', 'Ÿ']

/-- The character of a code. -/
def charOf (code : Nat) : Char :=
  if 128 ≤ code && code < 160 then (westernHigh[code - 128]?).getD '•' else Char.ofNat code

end Font
end Intake.Pdf
