import Intake.Text.Utf8

/-!
# Written texts are read back

`encodeChar` writes a character in one to four bytes, and `head` looks at the front of a byte
list. `shows_encodeChar` says how the two fit: what is written of a character is seen as that
character whatever follows, and as a cut if it is not there in full. So a written text is read
as what it was, and one that is cut anywhere is read up to the last whole character:
`read_encode`, `read_take`.
-/

namespace Intake.Utf8

theorem toNat_byte {n : Nat} (h : n < 256) : (byte n).toNat = n := by
  unfold byte
  rw [UInt8.toNat_ofNat']
  exact Nat.mod_eq_of_lt h

/-! ## Lead bytes -/

section Lead

variable {b : UInt8}

theorem lead_one (h : b.toNat < 0x80) : lead b = some (0, 0, 0) := by
  unfold lead
  dsimp only
  rw [if_pos h]

theorem lead_two (h : 0xC2 ≤ b.toNat) (h' : b.toNat < 0xE0) :
    lead b = some (1, 0x80, 0xBF) := by
  unfold lead
  dsimp only
  rw [if_neg (by omega), if_neg (by omega), if_pos h']

/-- The byte after it is at least A0 or at most 9F at the two ends of what must not be written. -/
theorem lead_three (h : 0xE0 ≤ b.toNat) (h' : b.toNat < 0xF0) :
    lead b = some (2, if b.toNat = 0xE0 then 0xA0 else 0x80,
      if b.toNat = 0xED then 0x9F else 0xBF) := by
  unfold lead
  dsimp only
  rw [if_neg (by omega), if_neg (by omega), if_neg (by omega)]
  by_cases h0 : b.toNat = 0xE0
  · rw [h0]
    rfl
  · by_cases hd : b.toNat = 0xED
    · rw [hd]
      rfl
    · rw [if_neg (by simpa using h0), if_neg (by simpa using hd), if_pos h', if_neg h0, if_neg hd]

theorem lead_four (h : 0xF0 ≤ b.toNat) (h' : b.toNat < 0xF5) :
    lead b = some (3, if b.toNat = 0xF0 then 0x90 else 0x80,
      if b.toNat = 0xF4 then 0x8F else 0xBF) := by
  unfold lead
  dsimp only
  rw [if_neg (by omega), if_neg (by omega), if_neg (by omega)]
  by_cases h0 : b.toNat = 0xF0
  · rw [h0]
    rfl
  · by_cases h4 : b.toNat = 0xF4
    · rw [h4]
      rfl
    · rw [if_neg (by simp; omega), if_neg (by simp; omega), if_neg (by omega),
        if_neg (by simpa using h0), if_pos (by omega), if_neg h0, if_neg h4]

end Lead

/-! ## One character -/

section Head

variable {b b1 : UInt8} {tails lo hi : Nat}

/-- A lead byte alone, if more must follow. -/
theorem head_alone (hl : lead b = some (tails + 1, lo, hi)) : head b [] = .cut := by
  unfold head
  rw [hl]
  rfl

theorem head_one (hl : lead b = some (0, lo, hi)) (rest : Bytes) :
    head b rest = .char (Char.ofNat b.toNat) 0 := by
  unfold head
  rw [hl]
  rfl

/-- The byte after a lead byte is in its range. -/
theorem in_range (hlo : lo ≤ b1.toNat) (hhi : b1.toNat ≤ hi) :
    (!(decide (lo ≤ b1.toNat) && decide (b1.toNat ≤ hi))) = false := by
  rw [decide_eq_true hlo, decide_eq_true hhi]
  rfl

theorem head_two (hl : lead b = some (1, lo, hi)) (hlo : lo ≤ b1.toNat) (hhi : b1.toNat ≤ hi)
    (rest : Bytes) :
    head b (b1 :: rest)
      = .char (Char.ofNat ((b.toNat - 0xC0) * 64 + (b1.toNat - 0x80))) 1 := by
  unfold head
  simp only [hl, in_range hlo hhi]
  rfl

theorem head_three (b1 b2 : UInt8) (hl : lead b = some (2, lo, hi)) (hlo : lo ≤ b1.toNat)
    (hhi : b1.toNat ≤ hi) (h2 : isTail b2 = true) (rest : Bytes) :
    head b (b1 :: b2 :: rest)
        = .char (Char.ofNat ((b.toNat - 0xE0) * 4096 + (b1.toNat - 0x80) * 64
          + (b2.toNat - 0x80))) 2
      ∧ head b [b1] = .cut := by
  unfold head
  simp only [hl, in_range hlo hhi, h2]
  exact ⟨rfl, rfl⟩

theorem head_four (b1 b2 b3 : UInt8) (hl : lead b = some (3, lo, hi)) (hlo : lo ≤ b1.toNat)
    (hhi : b1.toNat ≤ hi) (h2 : isTail b2 = true) (h3 : isTail b3 = true) (rest : Bytes) :
    head b (b1 :: b2 :: b3 :: rest)
        = .char (Char.ofNat ((b.toNat - 0xF0) * 262144 + (b1.toNat - 0x80) * 4096
          + (b2.toNat - 0x80) * 64 + (b3.toNat - 0x80))) 3
      ∧ head b [b1] = .cut ∧ head b [b1, b2] = .cut := by
  unfold head
  simp only [hl, in_range hlo hhi, h2, h3]
  exact ⟨rfl, rfl, rfl⟩

theorem isTail_byte {n : Nat} (h : n < 64) : isTail (byte (0x80 + n)) = true := by
  unfold isTail
  rw [toNat_byte (by omega)]
  simp
  omega

end Head

/-- The numbers of characters leave out the surrogates, and end. -/
theorem toNat_char (c : Char) :
    c.toNat < 0xD800 ∨ 0xDFFF < c.toNat ∧ c.toNat < 0x110000 := c.valid

/-- How bytes are seen that write a character: as what it is, whatever follows them, and as a cut
if they are not there in full. -/
structure Shows (c : Char) (b : UInt8) (bs : Bytes) : Prop where
  whole : ∀ rest, head b (bs ++ rest) = .char c bs.length
  short : ∀ k < bs.length, head b (bs.take k) = .cut

section Shows

variable {c : Char}

theorem shows_one (h : c.toNat < 0x80) : Shows c (byte c.toNat) [] where
  whole := by
    intro rest
    have hb := toNat_byte (n := c.toNat) (by omega)
    rw [head_one (lead_one (by omega)), hb, Char.ofNat_toNat]
    rfl
  short := fun k hk => absurd hk (by simp)

theorem shows_two (h : 0x80 ≤ c.toNat) (h' : c.toNat < 0x800) :
    Shows c (byte (0xC0 + c.toNat / 64)) [byte (0x80 + c.toNat % 64)] := by
  have hb := toNat_byte (n := 0xC0 + c.toNat / 64) (by omega)
  have hb1 := toNat_byte (n := 0x80 + c.toNat % 64) (by omega)
  have hl := lead_two (b := byte (0xC0 + c.toNat / 64)) (by omega) (by omega)
  refine ⟨fun rest => ?_, fun k hk => ?_⟩
  · have hval : (0xC0 + c.toNat / 64 - 0xC0) * 64 + (0x80 + c.toNat % 64 - 0x80) = c.toNat := by
      omega
    rw [List.singleton_append, head_two hl (by omega) (by omega), hb, hb1, hval, Char.ofNat_toNat]
    rfl
  · have hk0 : k = 0 := by simpa using hk
    rw [hk0]
    exact head_alone hl

theorem shows_three (h : 0x800 ≤ c.toNat) (h' : c.toNat < 0x10000) :
    Shows c (byte (0xE0 + c.toNat / 4096))
      [byte (0x80 + c.toNat / 64 % 64), byte (0x80 + c.toNat % 64)] := by
  have hvalid := toNat_char c
  have hb := toNat_byte (n := 0xE0 + c.toNat / 4096) (by omega)
  have hb1 := toNat_byte (n := 0x80 + c.toNat / 64 % 64) (by omega)
  have hb2 := toNat_byte (n := 0x80 + c.toNat % 64) (by omega)
  have hl := lead_three (b := byte (0xE0 + c.toNat / 4096)) (by omega) (by omega)
  rw [hb] at hl
  -- neither an overlong form nor a surrogate
  have hhead := head_three (byte (0x80 + c.toNat / 64 % 64))
    (byte (0x80 + c.toNat % 64)) hl (by split <;> omega) (by split <;> omega)
    (isTail_byte (Nat.mod_lt _ (by omega)))
  refine ⟨fun rest => ?_, fun k hk => ?_⟩
  · have hval : (0xE0 + c.toNat / 4096 - 0xE0) * 4096 + (0x80 + c.toNat / 64 % 64 - 0x80) * 64
        + (0x80 + c.toNat % 64 - 0x80) = c.toNat := by omega
    have hwhole := (hhead rest).1
    rw [hb, hb1, hb2, hval, Char.ofNat_toNat] at hwhole
    exact hwhole
  · have hk' : k = 0 ∨ k = 1 := by
      simp only [List.length_cons, List.length_nil] at hk
      omega
    rcases hk' with rfl | rfl
    · exact head_alone hl
    · exact (hhead []).2

theorem shows_four (h : 0x10000 ≤ c.toNat) :
    Shows c (byte (0xF0 + c.toNat / 262144))
      [byte (0x80 + c.toNat / 4096 % 64), byte (0x80 + c.toNat / 64 % 64),
        byte (0x80 + c.toNat % 64)] := by
  have hvalid := toNat_char c
  have hb := toNat_byte (n := 0xF0 + c.toNat / 262144) (by omega)
  have hb1 := toNat_byte (n := 0x80 + c.toNat / 4096 % 64) (by omega)
  have hb2 := toNat_byte (n := 0x80 + c.toNat / 64 % 64) (by omega)
  have hb3 := toNat_byte (n := 0x80 + c.toNat % 64) (by omega)
  have hl := lead_four (b := byte (0xF0 + c.toNat / 262144)) (by omega) (by omega)
  rw [hb] at hl
  -- neither an overlong form nor a number above the last character
  have hhead := head_four (byte (0x80 + c.toNat / 4096 % 64))
    (byte (0x80 + c.toNat / 64 % 64)) (byte (0x80 + c.toNat % 64)) hl
    (by split <;> omega) (by split <;> omega) (isTail_byte (Nat.mod_lt _ (by omega)))
    (isTail_byte (Nat.mod_lt _ (by omega)))
  refine ⟨fun rest => ?_, fun k hk => ?_⟩
  · have hval : (0xF0 + c.toNat / 262144 - 0xF0) * 262144
        + (0x80 + c.toNat / 4096 % 64 - 0x80) * 4096 + (0x80 + c.toNat / 64 % 64 - 0x80) * 64
        + (0x80 + c.toNat % 64 - 0x80) = c.toNat := by omega
    have hwhole := (hhead rest).1
    rw [hb, hb1, hb2, hb3, hval, Char.ofNat_toNat] at hwhole
    exact hwhole
  · have hk' : k = 0 ∨ k = 1 ∨ k = 2 := by
      simp only [List.length_cons, List.length_nil] at hk
      omega
    rcases hk' with rfl | rfl | rfl
    · exact head_alone hl
    · exact (hhead []).2.1
    · exact (hhead []).2.2

/-- **A character is seen in what is written of it.** -/
theorem shows_encodeChar (c : Char) : ∃ b bs, encodeChar c = b :: bs ∧ Shows c b bs := by
  unfold encodeChar
  dsimp only
  split
  · rename_i h1
    exact ⟨_, _, rfl, shows_one h1⟩
  · rename_i h1
    split
    · rename_i h2
      exact ⟨_, _, rfl, shows_two (by omega) h2⟩
    · rename_i h2
      split
      · rename_i h3
        exact ⟨_, _, rfl, shows_three (by omega) h3⟩
      · rename_i h3
        exact ⟨_, _, rfl, shows_four (by omega)⟩

end Shows

/-! ## Texts -/

theorem encode_cons (c : Char) (cs : List Char) : encode (c :: cs) = encodeChar c ++ encode cs :=
  List.flatMap_cons

/-- A written character is read off the front. -/
theorem readFrom_encodeChar (done : List Char) (c : Char) (rest : Bytes) :
    readFrom done (encodeChar c ++ rest) = readFrom (c :: done) rest := by
  obtain ⟨b, bs, hbs, hshows⟩ := shows_encodeChar c
  rw [hbs, List.cons_append, readFrom, hshows.whole rest]
  dsimp only
  rw [List.drop_left]

theorem readFrom_encode (done cs : List Char) :
    readFrom done (encode cs) = .whole (done.reverse ++ cs) := by
  induction cs generalizing done with
  | nil =>
      rw [List.append_nil]
      exact readFrom.eq_1 done
  | cons c cs ih =>
      rw [encode_cons, readFrom_encodeChar, ih, List.reverse_cons, List.append_assoc]
      rfl

/-- **A written text is read as what it was.** -/
theorem read_encode (cs : List Char) : read (encode cs) = .whole cs :=
  readFrom_encode [] cs

theorem decode?_encode (cs : List Char) : decode? (encode cs) = some cs := by
  unfold decode?
  rw [read_encode]

/-- A written text that is cut somewhere is read up to there, with a part of one more character at
most. -/
theorem readFrom_take (done cs : List Char) (n : Nat) : ∃ k,
    readFrom done ((encode cs).take n) = .whole (done.reverse ++ cs.take k)
      ∨ readFrom done ((encode cs).take n) = .cut (done.reverse ++ cs.take k) := by
  induction cs generalizing done n with
  | nil =>
      refine ⟨0, Or.inl ?_⟩
      rw [List.take_nil, List.append_nil]
      show readFrom done (([] : Bytes).take n) = _
      rw [List.take_nil]
      exact readFrom.eq_1 done
  | cons c cs ih =>
      obtain ⟨b, bs, hbs, hshows⟩ := shows_encodeChar c
      rw [encode_cons]
      rcases Nat.lt_or_ge n (encodeChar c).length with hshort | hlong
      · refine ⟨0, ?_⟩
        rw [List.take_append_of_le_length (Nat.le_of_lt hshort), hbs, List.take_zero,
          List.append_nil]
        cases n with
        | zero => exact Or.inl (readFrom.eq_1 done)
        | succ n =>
            right
            rw [hbs, List.length_cons] at hshort
            rw [List.take_succ_cons, readFrom, hshows.short n (by omega)]
      · obtain ⟨k, hk⟩ := ih (c :: done) (n - (encodeChar c).length)
        refine ⟨k + 1, ?_⟩
        rw [List.take_append, List.take_of_length_le hlong, readFrom_encodeChar,
          List.take_succ_cons]
        rw [List.reverse_cons, List.append_assoc] at hk
        exact hk

/-- **A text that is cut anywhere is no text with a fault in it.** -/
theorem read_take (cs : List Char) (n : Nat) : ∃ k,
    read ((encode cs).take n) = .whole (cs.take k) ∨ read ((encode cs).take n) = .cut (cs.take k) :=
  readFrom_take [] cs n

end Intake.Utf8
