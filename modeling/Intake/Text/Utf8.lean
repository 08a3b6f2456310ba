/-!
# UTF-8

Texts as bytes. `encode` writes the shortest form of each character and `decode?`
reads exactly the written forms. A byte list that is no written form either ends
inside a character that could still be completed (`cut`) or holds a byte that no
continuation can mend (`bad`).

Bytes are added and divided as numbers, so that the range conditions stay linear.
-/

namespace Intake

/-- The content of a file or a message. -/
abbrev Bytes := List UInt8

namespace Utf8

/-- The byte of a number below 256. -/
def byte (n : Nat) : UInt8 := UInt8.ofNat n

/-- The bytes of one character. -/
def encodeChar (c : Char) : Bytes :=
  let n := c.toNat
  if n < 0x80 then [byte n]
  else if n < 0x800 then [byte (0xC0 + n / 64), byte (0x80 + n % 64)]
  else if n < 0x10000 then
    [byte (0xE0 + n / 4096), byte (0x80 + n / 64 % 64), byte (0x80 + n % 64)]
  else
    [byte (0xF0 + n / 262144), byte (0x80 + n / 4096 % 64), byte (0x80 + n / 64 % 64),
      byte (0x80 + n % 64)]

/-- The bytes of a text. -/
def encode (cs : List Char) : Bytes :=
  cs.flatMap encodeChar

/-- What the front of a byte list is. -/
inductive Head where
  /-- A whole character of `1 + used` bytes. -/
  | char (c : Char) (used : Nat)
  /-- The list ends inside a character that more bytes could complete. -/
  | cut
  /-- The lead byte and `used` bytes after it begin no character. -/
  | bad (used : Nat)
  deriving DecidableEq

/-- Holds of the bytes that continue a character. -/
def isTail (b : UInt8) : Bool :=
  0x80 ≤ b.toNat && b.toNat ≤ 0xBF

/-- How a lead byte goes on: the number of bytes after it and the range of the
first of them. The ranges leave out the overlong forms, the surrogates and the
numbers above the last character. -/
def lead (b : UInt8) : Option (Nat × Nat × Nat) :=
  let n := b.toNat
  if n < 0x80 then some (0, 0, 0)
  else if n < 0xC2 then none
  else if n < 0xE0 then some (1, 0x80, 0xBF)
  else if n == 0xE0 then some (2, 0xA0, 0xBF)
  else if n == 0xED then some (2, 0x80, 0x9F)
  else if n < 0xF0 then some (2, 0x80, 0xBF)
  else if n == 0xF0 then some (3, 0x90, 0xBF)
  else if n < 0xF4 then some (3, 0x80, 0xBF)
  else if n == 0xF4 then some (3, 0x80, 0x8F)
  else none

/-- The front of the list `b :: bs`. -/
def head (b : UInt8) (bs : Bytes) : Head :=
  match lead b with
  | none => .bad 0
  | some (0, _, _) => .char (Char.ofNat b.toNat) 0
  | some (tails, lo, hi) =>
    match bs with
    | [] => .cut
    | b1 :: bs1 =>
      if !(lo ≤ b1.toNat && b1.toNat ≤ hi) then .bad 0
      else if tails == 1 then
        .char (Char.ofNat ((b.toNat - 0xC0) * 64 + (b1.toNat - 0x80))) 1
      else
        match bs1 with
        | [] => .cut
        | b2 :: bs2 =>
          if !isTail b2 then .bad 1
          else if tails == 2 then
            .char (Char.ofNat ((b.toNat - 0xE0) * 4096 + (b1.toNat - 0x80) * 64
              + (b2.toNat - 0x80))) 2
          else
            match bs2 with
            | [] => .cut
            | b3 :: _ =>
              if !isTail b3 then .bad 2
              else
                .char (Char.ofNat ((b.toNat - 0xF0) * 262144 + (b1.toNat - 0x80) * 4096
                  + (b2.toNat - 0x80) * 64 + (b3.toNat - 0x80))) 3

/-- The three ways in which reading bytes as text ends. -/
inductive Reading where
  /-- The bytes are the written form of the characters. -/
  | whole (cs : List Char)
  /-- The characters, then a part of one more. -/
  | cut (cs : List Char)
  /-- The characters, then a byte that fits nowhere. -/
  | bad (cs : List Char)
  deriving DecidableEq

/-- Reads on with the characters so far in reverse. -/
def readFrom (done : List Char) : Bytes → Reading
  | [] => .whole done.reverse
  | b :: bs =>
    match head b bs with
    | .char c used => readFrom (c :: done) (bs.drop used)
    | .cut => .cut done.reverse
    | .bad _ => .bad done.reverse
  termination_by bs => bs.length
  decreasing_by simp only [List.length_drop, List.length_cons]; omega

/-- Reads bytes as text. -/
def read (bs : Bytes) : Reading :=
  readFrom [] bs

/-- The text whose bytes these are. -/
def decode? (bs : Bytes) : Option (List Char) :=
  match read bs with
  | .whole cs => some cs
  | _ => none

/-- Reads on, with U+FFFD for each longest stretch that begins no character. -/
def repairFrom (done : List Char) : Bytes → List Char
  | [] => done.reverse
  | b :: bs =>
    match head b bs with
    | .char c used => repairFrom (c :: done) (bs.drop used)
    | .cut => ('\uFFFD' :: done).reverse
    | .bad used => repairFrom ('\uFFFD' :: done) (bs.drop used)
  termination_by bs => bs.length
  decreasing_by all_goals (simp only [List.length_drop, List.length_cons]; omega)

/-- Reads bytes as text and replaces what is not text. -/
def repair (bs : Bytes) : String :=
  String.ofList (repairFrom [] bs)

/-- The text whose bytes these are. -/
def text? (bs : Bytes) : Option String :=
  (decode? bs).map String.ofList

/-- The bytes of a text. -/
def bytesOf (s : String) : Bytes :=
  encode s.toList

end Utf8
end Intake
