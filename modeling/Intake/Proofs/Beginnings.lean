import Intake.Media.Sniff
import Intake.Proofs.Encoding

/-!
# What a text can begin with

Only the first bytes of a file are looked at, so a text may be cut anywhere, also inside a
character. `Utf8.seen` says what `head` makes of the front of a byte list: a whole character is
the one whose written form stands there, and at a cut some bytes are missing that complete a
character. The second is where the ranges behind E0, ED, F0 and F4 matter, since a lead byte and
one more byte may already begin no character at all.

So the bytes that are read without a fault are those that a text can begin with
(`Utf8.begins_iff`), and `text_beginnings` says so of what looks like text.
-/

namespace Intake

namespace Utf8

/-- Holds of the bytes of a text. -/
def IsText (bs : Bytes) : Prop :=
  bs.toByteArray.IsValidUTF8

/-- Holds of the bytes that some text begins with. -/
def Begins (bs : Bytes) : Prop :=
  ∃ more, IsText (bs ++ more)

/-! ## The written forms -/

/-- The written form of a character is the one of the standard. -/
theorem encodeChar_eq (c : Char) : encodeChar c = String.utf8EncodeChar c := by
  have hvalid := toNat_char c
  have hval : c.val.toNat = c.toNat := rfl
  unfold encodeChar String.utf8EncodeChar byte
  dsimp only
  rw [hval]
  by_cases h1 : c.toNat < 0x80
  · rw [if_pos h1, if_pos (by omega : c.toNat ≤ 127)]
  rw [if_neg h1, if_neg (by omega : ¬ c.toNat ≤ 127)]
  by_cases h2 : c.toNat < 0x800
  · have hlead : 0xC0 + c.toNat / 64 = c.toNat / 64 % 32 + 192 := by omega
    rw [if_pos h2, if_pos (by omega : c.toNat ≤ 2047), hlead, Nat.add_comm 0x80]
  rw [if_neg h2, if_neg (by omega : ¬ c.toNat ≤ 2047)]
  by_cases h3 : c.toNat < 0x10000
  · have hlead : 0xE0 + c.toNat / 4096 = c.toNat / 4096 % 16 + 224 := by omega
    rw [if_pos h3, if_pos (by omega : c.toNat ≤ 65535), hlead, Nat.add_comm 0x80,
      Nat.add_comm 0x80]
  · have hlead : 0xF0 + c.toNat / 262144 = c.toNat / 262144 % 8 + 240 := by omega
    rw [if_neg h3, if_neg (by omega : ¬ c.toNat ≤ 65535), hlead, Nat.add_comm 0x80,
      Nat.add_comm 0x80, Nat.add_comm 0x80]

theorem isText_iff {bs : Bytes} : IsText bs ↔ ∃ cs, bs = encode cs := by
  have hencode : ∀ cs, cs.utf8Encode = (encode cs).toByteArray := by
    intro cs
    unfold List.utf8Encode encode
    rw [funext encodeChar_eq]
  refine ⟨fun h => ?_, ?_⟩
  · obtain ⟨cs, hcs⟩ := h
    rw [hencode] at hcs
    exact ⟨cs, List.toByteArray_inj.mp hcs⟩
  · rintro ⟨cs, rfl⟩
    exact ⟨cs, (hencode cs).symm⟩

/-! ## The front of a byte list -/

theorem toNat_ofNat {n : Nat} (h : n.isValidChar) : (Char.ofNat n).toNat = n := by
  unfold Char.ofNat
  rw [dif_pos h]
  rfl

theorem byte_eq {b : UInt8} {n : Nat} (h : n = b.toNat) : byte n = b := by
  subst h
  exact UInt8.ofNat_toNat

/-- What a byte that may follow a lead byte is at most and at least. -/
theorem isTail_iff {b : UInt8} : isTail b = true ↔ 0x80 ≤ b.toNat ∧ b.toNat ≤ 0xBF := by
  unfold isTail
  rw [Bool.and_eq_true, decide_eq_true_eq, decide_eq_true_eq]

section Written

variable {b b1 b2 b3 : UInt8}

theorem written_one (h : b.toNat < 0x80) : encodeChar (Char.ofNat b.toNat) = [b] := by
  have hn := toNat_ofNat (n := b.toNat) (Or.inl (by omega))
  unfold encodeChar
  dsimp only
  rw [hn, if_pos h, byte_eq rfl]

theorem written_two (h : 0xC2 ≤ b.toNat) (h' : b.toNat < 0xE0) (h1 : isTail b1 = true) :
    encodeChar (Char.ofNat ((b.toNat - 0xC0) * 64 + (b1.toNat - 0x80))) = [b, b1] := by
  rw [isTail_iff] at h1
  have hn := toNat_ofNat (n := (b.toNat - 0xC0) * 64 + (b1.toNat - 0x80)) (Or.inl (by omega))
  unfold encodeChar
  dsimp only
  rw [hn, if_neg (by omega), if_pos (by omega), byte_eq (b := b) (by omega),
    byte_eq (b := b1) (by omega)]

/-- The byte behind E0 keeps out the overlong forms, and the one behind ED the surrogates. -/
theorem written_three (h : 0xE0 ≤ b.toNat) (h' : b.toNat < 0xF0)
    (hlo : (if b.toNat = 0xE0 then 0xA0 else 0x80) ≤ b1.toNat)
    (hhi : b1.toNat ≤ if b.toNat = 0xED then 0x9F else 0xBF) (h2 : isTail b2 = true) :
    encodeChar (Char.ofNat ((b.toNat - 0xE0) * 4096 + (b1.toNat - 0x80) * 64
      + (b2.toNat - 0x80))) = [b, b1, b2] := by
  rw [isTail_iff] at h2
  have h1 : 0x80 ≤ b1.toNat ∧ b1.toNat ≤ 0xBF ∧ (b.toNat = 0xE0 → 0xA0 ≤ b1.toNat)
      ∧ (b.toNat = 0xED → b1.toNat ≤ 0x9F) := by
    split at hlo <;> split at hhi <;> omega
  have hn := toNat_ofNat (n := (b.toNat - 0xE0) * 4096 + (b1.toNat - 0x80) * 64
    + (b2.toNat - 0x80)) (by unfold Nat.isValidChar; omega)
  unfold encodeChar
  dsimp only
  rw [hn, if_neg (by omega), if_neg (by omega), if_pos (by omega), byte_eq (b := b) (by omega),
    byte_eq (b := b1) (by omega), byte_eq (b := b2) (by omega)]

/-- The byte behind F0 keeps out the overlong forms, and the one behind F4 what is above the last
character. -/
theorem written_four (h : 0xF0 ≤ b.toNat) (h' : b.toNat < 0xF5)
    (hlo : (if b.toNat = 0xF0 then 0x90 else 0x80) ≤ b1.toNat)
    (hhi : b1.toNat ≤ if b.toNat = 0xF4 then 0x8F else 0xBF) (h2 : isTail b2 = true)
    (h3 : isTail b3 = true) :
    encodeChar (Char.ofNat ((b.toNat - 0xF0) * 262144 + (b1.toNat - 0x80) * 4096
      + (b2.toNat - 0x80) * 64 + (b3.toNat - 0x80))) = [b, b1, b2, b3] := by
  rw [isTail_iff] at h2 h3
  have h1 : 0x80 ≤ b1.toNat ∧ b1.toNat ≤ 0xBF ∧ (b.toNat = 0xF0 → 0x90 ≤ b1.toNat)
      ∧ (b.toNat = 0xF4 → b1.toNat ≤ 0x8F) := by
    split at hlo <;> split at hhi <;> omega
  have hn := toNat_ofNat (n := (b.toNat - 0xF0) * 262144 + (b1.toNat - 0x80) * 4096
    + (b2.toNat - 0x80) * 64 + (b3.toNat - 0x80)) (by unfold Nat.isValidChar; omega)
  unfold encodeChar
  dsimp only
  rw [hn, if_neg (by omega), if_neg (by omega), if_neg (by omega), byte_eq (b := b) (by omega),
    byte_eq (b := b1) (by omega), byte_eq (b := b2) (by omega), byte_eq (b := b3) (by omega)]

end Written

/-- What `head` says of the front of the list `b :: bs`. -/
inductive Seen (b : UInt8) (bs : Bytes) : Head → Prop
  /-- A character whose written form stands there. -/
  | char {c : Char} (tl : Bytes) {rest : Bytes} : bs = tl ++ rest → encodeChar c = b :: tl →
      Seen b bs (.char c tl.length)
  /-- A character whose written form is there but for some bytes at its end. -/
  | cut {c : Char} (more : Bytes) : encodeChar c = b :: (bs ++ more) → Seen b bs .cut
  | bad {used : Nat} : Seen b bs (.bad used)

section Seen

variable {b b1 b2 b3 : UInt8} {bs rest : Bytes} {tails lo hi : Nat}

/-- Behind a lead byte comes no byte out of its range. -/
theorem head_stray (hl : lead b = some (tails + 1, lo, hi))
    (h : ¬ (lo ≤ b1.toNat ∧ b1.toNat ≤ hi)) : head b (b1 :: rest) = .bad 0 := by
  have hout : (!(decide (lo ≤ b1.toNat) && decide (b1.toNat ≤ hi))) = true := by
    rw [Bool.not_eq_true', ← Bool.not_eq_true, Bool.and_eq_true, decide_eq_true_eq,
      decide_eq_true_eq]
    exact h
  unfold head
  simp only [hl, hout]
  rfl

theorem head_stray_third (hl : lead b = some (tails + 2, lo, hi)) (hlo : lo ≤ b1.toNat)
    (hhi : b1.toNat ≤ hi) (h2 : ¬ isTail b2 = true) : head b (b1 :: b2 :: rest) = .bad 1 := by
  have hout : (!isTail b2) = true := by simpa using h2
  unfold head
  simp only [hl, in_range hlo hhi, hout]
  rfl

theorem head_stray_fourth (hl : lead b = some (3, lo, hi)) (hlo : lo ≤ b1.toNat)
    (hhi : b1.toNat ≤ hi) (h2 : isTail b2 = true) (h3 : ¬ isTail b3 = true) :
    head b (b1 :: b2 :: b3 :: rest) = .bad 2 := by
  have hout : (!isTail b3) = true := by simpa using h3
  unfold head
  simp only [hl, in_range hlo hhi, h2, hout]
  rfl

/-- The least of the bytes that continue a character. -/
theorem isTail_least : isTail (byte 0x80) = true := by decide

theorem seen_two (h : 0xC2 ≤ b.toNat) (h' : b.toNat < 0xE0) (bs : Bytes) :
    Seen b bs (head b bs) := by
  have hl := lead_two h h'
  cases bs with
  | nil =>
      rw [head_alone hl]
      exact .cut [byte 0x80] (written_two h h' isTail_least)
  | cons b1 bs =>
      by_cases h1 : 0x80 ≤ b1.toNat ∧ b1.toNat ≤ 0xBF
      · rw [head_two hl h1.1 h1.2]
        exact .char [b1] rfl (written_two h h' (isTail_iff.mpr h1))
      · rw [head_stray hl h1]
        exact .bad

theorem seen_three (h : 0xE0 ≤ b.toNat) (h' : b.toNat < 0xF0) (bs : Bytes) :
    Seen b bs (head b bs) := by
  have hl := lead_three h h'
  cases bs with
  | nil =>
      rw [head_alone hl]
      -- the least second byte is another one behind E0
      have hsecond := toNat_byte (n := if b.toNat = 0xE0 then 0xA0 else 0x80) (by split <;> omega)
      refine .cut [byte (if b.toNat = 0xE0 then 0xA0 else 0x80), byte 0x80]
        (written_three h h' ?_ ?_ isTail_least)
      · exact Nat.le_of_eq hsecond.symm
      · rw [hsecond]
        split <;> split <;> omega
  | cons b1 bs =>
      by_cases h1 : (if b.toNat = 0xE0 then 0xA0 else 0x80) ≤ b1.toNat
          ∧ b1.toNat ≤ if b.toNat = 0xED then 0x9F else 0xBF
      · obtain ⟨hlo, hhi⟩ := h1
        cases bs with
        | nil =>
            rw [(head_three b1 (byte 0x80) hl hlo hhi isTail_least []).2]
            exact .cut [byte 0x80] (written_three h h' hlo hhi isTail_least)
        | cons b2 bs =>
            by_cases h2 : isTail b2 = true
            · rw [(head_three b1 b2 hl hlo hhi h2 bs).1]
              exact .char [b1, b2] rfl (written_three h h' hlo hhi h2)
            · rw [head_stray_third hl hlo hhi h2]
              exact .bad
      · rw [head_stray hl h1]
        exact .bad

theorem seen_four (h : 0xF0 ≤ b.toNat) (h' : b.toNat < 0xF5) (bs : Bytes) :
    Seen b bs (head b bs) := by
  have hl := lead_four h h'
  cases bs with
  | nil =>
      rw [head_alone hl]
      have hsecond := toNat_byte (n := if b.toNat = 0xF0 then 0x90 else 0x80) (by split <;> omega)
      refine .cut [byte (if b.toNat = 0xF0 then 0x90 else 0x80), byte 0x80, byte 0x80]
        (written_four h h' ?_ ?_ isTail_least isTail_least)
      · exact Nat.le_of_eq hsecond.symm
      · rw [hsecond]
        split <;> split <;> omega
  | cons b1 bs =>
      by_cases h1 : (if b.toNat = 0xF0 then 0x90 else 0x80) ≤ b1.toNat
          ∧ b1.toNat ≤ if b.toNat = 0xF4 then 0x8F else 0xBF
      · obtain ⟨hlo, hhi⟩ := h1
        have hleast := head_four b1 (byte 0x80) (byte 0x80) hl hlo hhi isTail_least isTail_least []
        rcases bs with _ | ⟨b2, _ | ⟨b3, bs⟩⟩
        · rw [hleast.2.1]
          exact .cut [byte 0x80, byte 0x80]
            (written_four h h' hlo hhi isTail_least isTail_least)
        · by_cases h2 : isTail b2 = true
          · rw [(head_four b1 b2 (byte 0x80) hl hlo hhi h2 isTail_least []).2.2]
            exact .cut [byte 0x80] (written_four h h' hlo hhi h2 isTail_least)
          · rw [head_stray_third hl hlo hhi h2]
            exact .bad
        · by_cases h2 : isTail b2 = true
          · by_cases h3 : isTail b3 = true
            · rw [(head_four b1 b2 b3 hl hlo hhi h2 h3 bs).1]
              exact .char [b1, b2, b3] rfl (written_four h h' hlo hhi h2 h3)
            · rw [head_stray_fourth hl hlo hhi h2 h3]
              exact .bad
          · rw [head_stray_third hl hlo hhi h2]
            exact .bad
      · rw [head_stray hl h1]
        exact .bad

/-- The bytes 80 to C1 and F5 to FF begin no character. -/
theorem lead_none (h : 0x80 ≤ b.toNat ∧ b.toNat < 0xC2 ∨ 0xF5 ≤ b.toNat) : lead b = none := by
  unfold lead
  dsimp only
  rw [if_neg (by omega)]
  rcases h with h | h
  · rw [if_pos h.2]
  · rw [if_neg (by omega), if_neg (by omega), if_neg (by simp; omega), if_neg (by simp; omega),
      if_neg (by omega), if_neg (by simp; omega), if_neg (by omega), if_neg (by simp; omega)]

/-- **What is seen at the front of a byte list**, by the five ranges of its first byte. -/
theorem seen (b : UInt8) (bs : Bytes) : Seen b bs (head b bs) := by
  by_cases h1 : b.toNat < 0x80
  · rw [head_one (lead_one h1)]
    exact .char [] rfl (written_one h1)
  by_cases h2 : b.toNat < 0xC2
  · unfold head
    rw [lead_none (Or.inl ⟨by omega, h2⟩)]
    exact .bad
  by_cases h3 : b.toNat < 0xE0
  · exact seen_two (by omega) h3 bs
  by_cases h4 : b.toNat < 0xF0
  · exact seen_three (by omega) h4 bs
  by_cases h5 : b.toNat < 0xF5
  · exact seen_four (by omega) h5 bs
  · unfold head
    rw [lead_none (Or.inr (by omega))]
    exact .bad

end Seen

/-! ## Reading -/

/-- What was read without a fault can be completed, by the bytes that are missing at the cut. -/
theorem completes {done : List Char} {bs : Bytes} (h : ∀ cs, readFrom done bs ≠ .bad cs) :
    ∃ more cs, bs ++ more = encode cs := by
  induction done, bs using readFrom.induct with
  | case1 done => exact ⟨[], [], rfl⟩
  | case2 done b bs c used hhead ih =>
      rw [readFrom, hhead] at h
      obtain ⟨more, cs, hmore⟩ := ih h
      have hseen := seen b bs
      rw [hhead] at hseen
      cases hseen with
      | @char _ tl rest hbs hc =>
          subst hbs
          rw [List.drop_left] at hmore
          refine ⟨more, c :: cs, ?_⟩
          rw [encode_cons, hc, ← hmore, List.cons_append, List.append_assoc]
          rfl
  | case3 done b bs hhead =>
      have hseen := seen b bs
      rw [hhead] at hseen
      cases hseen with
      | @cut c more hc =>
          refine ⟨more, [c], ?_⟩
          rw [encode_cons, hc]
          exact (List.append_nil _).symm
  | case4 done b bs used hhead =>
      rw [readFrom, hhead] at h
      exact absurd rfl (h _)

/-- **The bytes that are read without a fault are those that a text can begin with.** -/
theorem begins_iff (bs : Bytes) : Begins bs ↔ ∀ cs, read bs ≠ .bad cs := by
  refine ⟨?_, fun h => ?_⟩
  · rintro ⟨more, hmore⟩ cs hbad
    obtain ⟨ds, hds⟩ := isText_iff.mp hmore
    have htake : (encode ds).take bs.length = bs := by
      rw [← hds, List.take_left]
    obtain ⟨k, hk | hk⟩ := read_take ds bs.length <;> rw [htake, hbad] at hk <;> cases hk
  · obtain ⟨more, cs, hmore⟩ := completes h
    exact ⟨more, isText_iff.mpr ⟨cs, hmore⟩⟩

theorem Begins.front {front : Bytes} (rest : Bytes) (h : Begins (front ++ rest)) : Begins front := by
  obtain ⟨more, hmore⟩ := h
  rw [List.append_assoc] at hmore
  exact ⟨rest ++ more, hmore⟩

end Utf8

namespace Media

/-- Holds of bytes without those control bytes that stand in binary data alone. -/
def Clean (bs : Bytes) : Prop :=
  ∀ b ∈ bs, ¬ (b ≤ 0x08 ∨ b = 0x0B ∨ (0x0E ≤ b ∧ b ≤ 0x1A) ∨ (0x1C ≤ b ∧ b ≤ 0x1F))

theorem isBinaryControl_iff (b : UInt8) : isBinaryControl b = true
    ↔ b ≤ 0x08 ∨ b = 0x0B ∨ (0x0E ≤ b ∧ b ≤ 0x1A) ∨ (0x1C ≤ b ∧ b ≤ 0x1F) := by
  unfold isBinaryControl
  simp [UInt8.le_iff_toNat_le, ← UInt8.toNat_inj, or_assoc]

theorem clean_iff (bs : Bytes) : Clean bs ↔ bs.any isBinaryControl = false := by
  unfold Clean
  rw [List.any_eq_false]
  exact forall₂_congr fun b _ => not_congr (isBinaryControl_iff b).symm

theorem looksLikeText_iff (head : Bytes) :
    looksLikeText head = true ↔ Clean head ∧ Utf8.Begins head := by
  rw [clean_iff, Utf8.begins_iff]
  unfold looksLikeText
  rw [Bool.and_eq_true, Bool.not_eq_true', and_comm]
  cases Utf8.read head <;> simp

/-- **What looks like text is what a text can begin with**, if no control byte of binary data is in
it. So a text of any length looks like text wherever it is cut, and nothing does whose bytes so far
no text begins with, whatever comes behind them. -/
theorem text_beginnings (bs : Bytes) :
    (looksLikeText bs = true ↔ Clean bs ∧ Utf8.Begins bs)
      ∧ (Clean bs → Utf8.IsText bs → ∀ n, looksLikeText (bs.take n) = true)
      ∧ (¬ Utf8.Begins bs → ∀ rest, looksLikeText (bs ++ rest) = false) := by
  refine ⟨looksLikeText_iff bs, fun hclean htext n => ?_, fun hnot rest => ?_⟩
  · refine (looksLikeText_iff _).mpr ⟨fun b hb => hclean b (List.mem_of_mem_take hb), ?_⟩
    refine Utf8.Begins.front (bs.drop n) ⟨[], ?_⟩
    rw [List.take_append_drop, List.append_nil]
    exact htext
  · rw [← Bool.not_eq_true, looksLikeText_iff]
    exact fun h => hnot (h.2.front rest)

/-- The byte behind E0 decides whether three bytes can come of it. -/
example : looksLikeText [0x61, 0xE0, 0xA0] = true ∧ looksLikeText [0x61, 0xE0, 0x9F] = false := by
  decide +kernel

end Media
end Intake
