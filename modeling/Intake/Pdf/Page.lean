import Intake.Pdf.File
import Intake.Pdf.Font

/-!
# Page contents

The text of a page is what its operators show, in the order in which they show it. The
place of each shown string decides what goes before it: a line feed when it is on
another line than the one before, and a space when it leaves a gap after it.
-/

namespace Intake.Pdf

/-- An affine map of the plane: `(x, y)` goes to `(a x + c y + e, b x + d y + f)`. -/
structure Transform where
  a : Rat
  b : Rat
  c : Rat
  d : Rat
  e : Rat
  f : Rat

namespace Transform

def identity : Transform := ⟨1, 0, 0, 1, 0, 0⟩

def shift (x y : Rat) : Transform := ⟨1, 0, 0, 1, x, y⟩

/-- First one map, then another. -/
def andThen (s t : Transform) : Transform where
  a := s.a * t.a + s.b * t.c
  b := s.a * t.b + s.b * t.d
  c := s.c * t.a + s.d * t.c
  d := s.c * t.b + s.d * t.d
  e := s.e * t.a + s.f * t.c + t.e
  f := s.e * t.b + s.f * t.d + t.f

end Transform

/-- A square root, rounded down to nine decimal places; zero for a negative number. -/
def root (q : Rat) : Rat :=
  if q.num ≤ 0 then 0
  else
    let scaled := q.num.toNat * Nat.pow 10 18 / q.den
    (((Nat.sqrt scaled : Nat) : Rat)) / ((Nat.pow 10 9 : Nat) : Rat)

/-- How the text is to look. -/
structure TextStyle where
  font : Option Font := none
  size : Rat := 0
  charSpacing : Rat := 0
  wordSpacing : Rat := 0
  /-- The horizontal scale. -/
  stretch : Rat := 1
  leading : Rat := 0
  rise : Rat := 0

/-- What the operators change. -/
structure Pen where
  style : TextStyle := {}
  /-- Where the next character goes. -/
  text : Transform := .identity
  /-- From the page to the sheet. -/
  page : Transform := .identity

/-- The text so far and where its last character was. -/
structure Shown where
  /-- The characters, the last first. -/
  chars : List Char := []
  lastEnd : Rat := 100000
  lastY : Rat := 0

/-- A page in the middle of its contents. -/
structure Scene where
  pen : Pen := {}
  /-- The start of the current line. -/
  line : Transform := .identity
  saved : List Pen := []
  shown : Shown := {}

namespace Scene

/-- The distance between two numbers. -/
def distance (x y : Rat) : Rat :=
  if x ≤ y then y - x else x - y

/-- What goes before a string: its first character is at `(x, y)`, `size` tall. -/
def gap (s : Shown) (x y size : Rat) : List Char :=
  let apart := distance y s.lastY
  (if size * (3 / 2 : Rat) < apart then ['\n'] else [])
    ++ (if x < s.lastEnd && size * (1 / 2 : Rat) < apart then ['\n'] else [])
    ++ (if s.lastEnd + size * (1 / 10 : Rat) < x then [' '] else [])

/-- Shows one character; `flip` turns the page over, so that lines go down. -/
def showChar (flip : Transform) (font : Font) (first : Bool) (pen : Pen) (shown : Shown)
    (c : Char) : Pen × Shown :=
  let style := pen.style
  let local' : Transform := ⟨style.stretch, 0, 0, 1, 0, style.rise⟩
  let whole := local'.andThen (pen.text.andThen pen.page)
  let place := whole.andThen flip
  let size := root ((style.size * (whole.a + whole.c)) * (style.size * (whole.b + whole.d)))
  let width := font.width c.toNat / 1000
  let spacing := style.charSpacing + if c = ' ' then style.wordSpacing else 0
  let before := if first then gap shown place.e place.f size else []
  let advance := style.stretch * (width * style.size + spacing)
  ({ pen with text := (Transform.shift advance 0).andThen pen.text },
    { chars := Font.charOf c.toNat :: (before.reverse ++ shown.chars)
      lastEnd := place.e + width * size
      lastY := place.f })

/-- Shows the characters of a string. -/
def showFrom (flip : Transform) (font : Font) (first : Bool) (pen : Pen) (shown : Shown) :
    List Char → Pen × Shown
  | [] => (pen, shown)
  | c :: r =>
    let (pen, shown) := showChar flip font first pen shown c
    showFrom flip font false pen shown r

/-- Shows a string; without a font there is no way to. -/
def showString (flip : Transform) (s : Scene) (cs : List Char) : Option Scene :=
  match s.pen.style.font with
  | some font =>
    let (pen, shown) := showFrom flip font true s.pen s.shown cs
    some { s with pen, shown }
  | none => none

/-- Shows strings with the shifts between them. -/
def showItems (flip : Transform) (s : Scene) : List Value → Option Scene
  | [] => some s
  | .string cs :: r => do (← s.showString flip cs).showItems flip r
  | .number q :: r =>
    let style := s.pen.style
    let advance := style.stretch * (-(q / 1000) * style.size)
    let pen := { s.pen with text := (Transform.shift advance 0).andThen s.pen.text }
    showItems flip { s with pen } r
  | _ :: r => showItems flip s r

/-- Begins a line at a given place. -/
def startLine (s : Scene) (line : Transform) : Scene :=
  { s with line, pen := { s.pen with text := line } }

/-- Begins a line by a step from the current one. -/
def moveLine (s : Scene) (x y : Rat) : Scene :=
  s.startLine ((Transform.shift x y).andThen s.line)

/-- The map that six numbers write. -/
def transform? (operands : List Value) : Option Transform := do
  match ← operands.mapM Value.number? with
  | [a, b, c, d, e, f] => some ⟨a, b, c, d, e, f⟩
  | _ => none

/-- Carries out one operator; `none` if it cannot be carried out. -/
def operate (flip : Transform) (fonts : String → Option Font) (s : Scene)
    (operands : List Value) (operator : String) : Option Scene :=
  let style := s.pen.style
  let restyle (t : TextStyle) : Scene := { s with pen := { s.pen with style := t } }
  match operator, operands with
  | "BT", _ | "ET", _ => some (s.startLine .identity)
  | "cm", _ => do
    let t ← transform? operands
    some { s with pen := { s.pen with page := t.andThen s.pen.page } }
  | "q", _ => some { s with saved := s.pen :: s.saved }
  | "Q", _ =>
    match s.saved with
    | pen :: saved => some { s with pen, saved }
    | [] => some s
  | "Tm", _ => do some (s.startLine (← transform? operands))
  | "Td", [.number x, .number y] => some (s.moveLine x y)
  | "Td", _ => none
  | "TD", [.number x, .number y] =>
    some ((restyle { style with leading := -y }).moveLine x y)
  | "TD", _ => none
  | "T*", _ => some (s.moveLine 0 (-style.leading))
  | "Tf", [.name n, .number size] => do
    some (restyle { style with font := some (← fonts n), size })
  | "Tf", _ => none
  | "Tc", [.number q] => some (restyle { style with charSpacing := q })
  | "Tw", [.number q] => some (restyle { style with wordSpacing := q })
  | "Tz", [.number q] => some (restyle { style with stretch := q / 100 })
  | "TL", [.number q] => some (restyle { style with leading := q })
  | "Ts", [.number q] => some (restyle { style with rise := q })
  | "Tj", [.string cs] => s.showString flip cs
  | "TJ", [.array items] => s.showItems flip items
  | _, _ => some s

/-- Carries out operators until the contents end. Each takes a character of `fuel`. -/
def run? (flip : Transform) (fonts : String → Option Font) :
    (fuel : Nat) → Scene → List Char → Option Scene
  | 0, s, _ => some s
  | fuel + 1, s, cs =>
    match row? cs with
    | some (operands, operator, rest) =>
      match s.operate flip fonts operands operator with
      | some s => run? flip fonts fuel s rest
      | none => none
    | none => some s

end Scene

namespace File

/-- The font of a name among a page's resources. -/
def font? (f : File) (resources : Value) (name : String) : Option Font := do
  let fonts ← f.member? "Font" resources
  let font ← f.member? name fonts
  let first := ((f.member? "FirstChar" font).bind Value.natural?).getD 0
  let widths := ((f.member? "Widths" font).bind Value.items?).getD []
  some { first, widths := widths.filterMap Value.number? }

/-- The height of a page. -/
def height? (f : File) (page : List Value) : Option Rat := do
  let box ← f.inherited? "MediaBox" page
  match ← (← box.items?).mapM (fun v => (f.value? v).bind Value.number?) with
  | [_, low, _, high] => some (high - low)
  | _ => none

/-- Shows a page after the ones before it; `none` if it cannot be shown. -/
def showPage? (f : File) (shown : Shown) (page : List Value) : Option Shown := do
  let height ← f.height? page
  let flip : Transform := ⟨1, 0, 0, -1, 0, height⟩
  let resources := (f.inherited? "Resources" page).getD (.dictionary [])
  let content := f.content (page.headD .null)
  let s ← Scene.run? flip (f.font? resources) (content.length + 1) { shown } content
  some s.shown

end File
end Intake.Pdf
