import Mathlib.Algebra.Group.Nat.Defs
import Intake.Timestamp

/-!
# Timestamps that are read as they were written

Every field of a timestamp is written with a fixed number of digits, so reading takes just its
digits and stops (`Timestamp.number_decimalPadded`); only the fraction may have fewer than it
could, and then `Z` stops it. `Timestamp.read?_write` is for the timestamps whose year has four
digits. A leap second is one of them.
-/

namespace Intake

namespace Text

/-! ## Digits -/

/-- The decimal digits. -/
def numerals : List Char :=
  ['0', '1', '2', '3', '4', '5', '6', '7', '8', '9']

/-- The value of a digit that was written. -/
theorem digit?_ofNat : ∀ d < 10, digit? (Char.ofNat ('0'.toNat + d)) = some d := by
  decide

theorem numeralFrom_append (f : Char → Option Nat) (base acc : Nat) (cs ds : List Char) :
    numeralFrom f base acc (cs ++ ds)
      = (numeralFrom f base acc cs).bind fun n => numeralFrom f base n ds := by
  induction cs generalizing acc with
  | nil => rfl
  | cons c cs ih =>
      rw [List.cons_append, numeralFrom, numeralFrom]
      cases f c with
      | none => rfl
      | some d => exact ih _

@[simp] theorem length_decimalPadded (w n : Nat) : (decimalPadded w n).length = w := by
  induction w generalizing n with
  | zero => rfl
  | succ w ih => rw [decimalPadded, List.length_append, ih, List.length_singleton]

theorem decimalPadded_sub (w n : Nat) : decimalPadded w n ⊆ numerals := by
  have hdigit : ∀ d < 10, Char.ofNat ('0'.toNat + d) ∈ numerals := by decide
  induction w generalizing n with
  | zero => exact List.nil_subset _
  | succ w ih =>
      rw [decimalPadded]
      refine List.append_subset.mpr ⟨ih _, ?_⟩
      exact List.cons_subset.mpr ⟨hdigit _ (Nat.mod_lt _ (by decide)), List.nil_subset _⟩

/-- A number has a first digit. -/
theorem decimalPadded_head {w : Nat} (hw : 0 < w) (n : Nat) :
    ∃ c ∈ numerals, ∃ ds, decimalPadded w n = c :: ds := by
  have hsub := decimalPadded_sub w n
  cases hds : decimalPadded w n with
  | nil =>
      have hlen := length_decimalPadded w n
      rw [hds, List.length_nil] at hlen
      exact absurd hlen (Nat.ne_of_lt hw)
  | cons c ds =>
      rw [hds] at hsub
      exact ⟨c, hsub List.mem_cons_self, ds, rfl⟩

/-- As many digits as are needed give the number back. -/
theorem decimal?_decimalPadded {w n : Nat} (hw : 0 < w) (hn : n < 10 ^ w) :
    decimal? (decimalPadded w n) = some n := by
  have hfrom : ∀ w n, numeralFrom digit? 10 0 (decimalPadded w n) = some (n % 10 ^ w) := by
    intro w
    induction w with
    | zero =>
        intro n
        rw [Nat.pow_zero, Nat.mod_one]
        rfl
    | succ w ih =>
        intro n
        rw [decimalPadded, numeralFrom_append, ih, Option.bind_some, numeralFrom,
          digit?_ofNat _ (Nat.mod_lt _ (by decide))]
        show some (n / 10 % 10 ^ w * 10 + n % 10) = _
        rw [Nat.pow_succ', Nat.mod_mul]
        congr 1
        omega
  have hsome : ¬ (decimalPadded w n).isEmpty = true := by
    rw [List.isEmpty_iff_length_eq_zero, length_decimalPadded]
    omega
  unfold decimal?
  rw [if_neg hsome, hfrom, Nat.mod_eq_of_lt hn]

end Text

namespace Timestamp

/-! ## Fields -/

/-- Holds of what can stand behind a number. -/
def Stops (rest : List Char) : Prop :=
  ∀ c, rest.head? = some c → (Text.digit? c).isSome = false

/-- Digits are taken up to the most that may be taken, or up to something else. -/
theorem takeDigits_append {most : Nat} {ds rest : List Char}
    (hds : ∀ c ∈ ds, (Text.digit? c).isSome = true) (hlen : ds.length ≤ most)
    (hrest : ds.length = most ∨ Stops rest) : takeDigits most (ds ++ rest) = (ds, rest) := by
  induction ds generalizing most with
  | nil =>
      cases most with
      | zero => rfl
      | succ most =>
          have hstop := hrest.resolve_left (by simp)
          cases rest with
          | nil => rfl
          | cons c rest =>
              rw [List.nil_append, takeDigits, if_neg (by simp [hstop c rfl])]
  | cons d ds ih =>
      cases most with
      | zero => exact absurd hlen (by simp)
      | succ most =>
          rw [List.cons_append, takeDigits, if_pos (hds d List.mem_cons_self),
            ih (fun c hc => hds c (List.mem_cons_of_mem _ hc)) (by simpa using hlen)
              (hrest.imp_left fun h => by simpa using h)]

/-- Nothing is blank in front of a number. -/
theorem dropWhile_decimalPadded {w : Nat} (hw : 0 < w) (n : Nat) (rest : List Char) :
    (Text.decimalPadded w n ++ rest).dropWhile Text.isBlank
      = Text.decimalPadded w n ++ rest := by
  have hblank : Text.numerals.all (fun c => !Text.isBlank c) = true := by decide
  obtain ⟨c, hc, ds, hds⟩ := Text.decimalPadded_head hw n
  have hfirst : Text.isBlank c = false := by simpa using List.all_eq_true.mp hblank c hc
  rw [hds, List.cons_append, List.dropWhile_cons_of_neg (by simp [hfirst])]

/-- The digits of a number are taken if they are as many as may be taken, or something else
follows. -/
theorem takeDigits_decimalPadded {most w : Nat} (n : Nat) {rest : List Char} (hw : w ≤ most)
    (hrest : w = most ∨ Stops rest) :
    takeDigits most (Text.decimalPadded w n ++ rest) = (Text.decimalPadded w n, rest) := by
  have hdigit : Text.numerals.all (fun c => (Text.digit? c).isSome) = true := by decide
  have hlen := Text.length_decimalPadded w n
  exact takeDigits_append
    (fun c hc => List.all_eq_true.mp hdigit c (Text.decimalPadded_sub w n hc)) (by rw [hlen]; exact hw) (by rw [hlen]; exact hrest)

/-- **A number is read as it was written**, and what follows it stays. -/
theorem number_decimalPadded {w n : Nat} (hw : 0 < w) (hn : n < 10 ^ w) (rest : List Char) :
    number w (Text.decimalPadded w n ++ rest) = some (n, rest) := by
  unfold number
  rw [dropWhile_decimalPadded hw, takeDigits_decimalPadded n (Nat.le_refl w) (Or.inl rfl)]
  show (Text.decimal? (Text.decimalPadded w n)).bind _ = _
  rw [Text.decimal?_decimalPadded hw hn]
  rfl

/-- A mark is no blank. -/
theorem mark_cons {c : Char} (hc : Text.isBlank c = false) (rest : List Char) :
    mark c (c :: rest) = some rest := by
  unfold mark
  rw [List.dropWhile_cons_of_neg (by simp [hc])]
  simp

/-- A year of four digits is written without a sign. -/
theorem writeYear_eq {y : Int} (h₀ : 0 ≤ y) (h₁ : y ≤ 9999) :
    writeYear y = Text.decimalPadded 4 y.toNat := by
  unfold writeYear
  rw [if_pos (by simp [h₀, h₁])]

theorem readYear_writeYear {y : Int} (h₀ : 0 ≤ y) (h₁ : y ≤ 9999) (rest : List Char) :
    readYear (writeYear y ++ rest) = some (y, rest) := by
  have hsigns : Text.numerals.all (fun c => c != '-' && c != '+') = true := by decide
  have hnumber := number_decimalPadded (w := 4) (n := y.toNat) (by decide) (by omega) rest
  obtain ⟨c, hc, ds, hds⟩ := Text.decimalPadded_head (w := 4) (by decide) y.toNat
  have hsign : c ≠ '-' ∧ c ≠ '+' := by simpa using List.all_eq_true.mp hsigns c hc
  rw [writeYear_eq h₀ h₁]
  unfold readYear
  rw [dropWhile_decimalPadded (by decide)]
  rw [hds, List.cons_append] at hnumber ⊢
  split
  · rename_i heq
    exact absurd (List.cons.inj heq).1 hsign.1
  · rename_i heq
    exact absurd (List.cons.inj heq).1 hsign.2
  · rw [hnumber]
    show some ((y.toNat : Int), rest) = _
    rw [Int.toNat_of_nonneg h₀]

/-! ## The fraction -/

theorem readFraction_digits {w m : Nat} (hw : 0 < w) (h9 : w ≤ 9) (hm : m < 10 ^ w) :
    readFraction ('.' :: Text.decimalPadded w m ++ ['Z']) = some (m * 10 ^ (9 - w), ['Z']) := by
  have hstop : Stops ['Z'] := by
    intro c hc
    cases hc
    decide
  have htake := takeDigits_decimalPadded m h9 (Or.inr hstop)
  rw [List.cons_append, readFraction, htake]
  show (Text.decimal? (Text.decimalPadded w m)).bind _ = _
  rw [Text.decimal?_decimalPadded hw hm, Option.bind_some, Text.length_decimalPadded]
  rfl

/-- Of the four forms the shortest is written that loses nothing. -/
theorem readFraction_writeFraction {n : Nat} (hn : n < 1000000000) :
    readFraction (writeFraction n ++ ['Z']) = some (n, ['Z']) := by
  unfold writeFraction
  split
  · rename_i h
    rw [beq_iff_eq.mp h]
    rfl
  · split
    · rename_i h
      have h := beq_iff_eq.mp h
      refine (readFraction_digits (by decide) (by decide) (by omega)).trans ?_
      rw [show n / 1000000 * 10 ^ (9 - 3) = n by omega]
    · split
      · rename_i h
        have h := beq_iff_eq.mp h
        refine (readFraction_digits (by decide) (by decide) (by omega)).trans ?_
        rw [show n / 1000 * 10 ^ (9 - 6) = n by omega]
      · refine (readFraction_digits (by decide) (by decide) (by omega)).trans ?_
        rw [show n * 10 ^ (9 - 9) = n by omega]

/-! ## The whole -/

/-- Holds of the timestamps that can be written with a year of four digits. -/
structure OnWire (t : Timestamp) : Prop where
  valid : t.Valid
  year_nonneg : 0 ≤ t.year
  year_le : t.year ≤ 9999

/-- The parts of a timestamp give it back. In a leap second the seconds are sixty. -/
theorem ofParts?_eq {t : Timestamp} (h : t.OnWire) :
    ofParts? t.year t.month t.day (t.second / 3600) (t.second / 60 % 60)
      (t.second % 60 + t.nanos / 1000000000) (t.nanos % 1000000000) 0 = some t := by
  obtain ⟨hv, hy₀, hy₁⟩ := h
  have hsecond := hv.second_lt
  have hnanos := hv.nanos_lt
  have hleap := hv.leap
  have hguard : (decide (1 ≤ t.month) && decide (t.month ≤ 12) && decide (1 ≤ t.day)
      && decide (t.day ≤ daysInMonth t.year t.month) && decide (t.second / 3600 ≤ 23)
      && decide (t.second / 60 % 60 ≤ 59) && decide (t.second % 60 + t.nanos / 1000000000 ≤ 60)
      && decide (Int.natAbs 0 < 86400)) = true := by
    simp only [Bool.and_eq_true, decide_eq_true_eq]
    refine ⟨⟨⟨⟨⟨⟨⟨hv.month_pos, hv.month_le⟩, hv.day_pos⟩, hv.day_le⟩, ?_⟩, ?_⟩, ?_⟩, by decide⟩
    all_goals omega
  have hfirst : yearRange.1 ≤ t.year := Int.le_trans (by decide) hy₀
  have hlast : t.year ≤ yearRange.2 := Int.le_trans hy₁ (by decide)
  -- the sixtieth second is the leap second
  have hsixty : (t.second % 60 + t.nanos / 1000000000 == 60) = decide (1000000000 ≤ t.nanos) := by
    rw [Bool.eq_iff_iff, beq_iff_eq, decide_eq_true_eq]
    omega
  have hback : ∀ s n : Nat, s = t.second → n = t.nanos →
      back { year := t.year, month := t.month, day := t.day, second := s, nanos := n } 0 = t := by
    rintro s n rfl rfl
    unfold back
    dsimp only
    rw [if_neg (by omega), if_pos (by omega)]
    simp
  unfold ofParts?
  rw [if_pos hguard, hsixty]
  by_cases hl : 1000000000 ≤ t.nanos
  · rw [decide_eq_true hl, if_pos rfl]
    dsimp only
    rw [hback _ _ (by omega) (by omega), if_pos (by simp [hfirst, hlast])]
  · rw [decide_eq_false hl, if_neg Bool.false_ne_true]
    dsimp only
    rw [hback _ _ (by omega) (by omega), if_pos (by simp [hfirst, hlast])]

/-- **A timestamp is read as it was written.** -/
theorem read?_write {t : Timestamp} (h : t.OnWire) : read? t.write = some t := by
  have hv := h.valid
  have hmonth : t.month < 10 ^ 2 := Nat.lt_of_le_of_lt hv.month_le (by decide)
  have hday : t.day < 10 ^ 2 := by
    have hle : daysInMonth t.year t.month ≤ 31 := by
      unfold daysInMonth
      repeat' split
      all_goals decide
    exact Nat.lt_of_le_of_lt (Nat.le_trans hv.day_le hle) (by decide)
  have hhour : t.second / 3600 < 10 ^ 2 := by have := hv.second_lt; omega
  have hminute : t.second / 60 % 60 < 10 ^ 2 := by omega
  have hsecond : t.second % 60 + t.nanos / 1000000000 < 10 ^ 2 := by have := hv.nanos_lt; omega
  have hoffset : readOffset ['Z'] = some (0, []) := by decide
  unfold read? write writeChars readChars?
  rw [String.toList_ofList]
  simp only [List.append_assoc, List.cons_append, List.nil_append,
    readYear_writeYear h.year_nonneg h.year_le, number_decimalPadded (by decide) hmonth,
    number_decimalPadded (by decide) hday, number_decimalPadded (by decide) hhour,
    number_decimalPadded (by decide) hminute, number_decimalPadded (by decide) hsecond,
    mark_cons (c := '-') (by decide), mark_cons (c := ':') (by decide),
    readFraction_writeFraction (Nat.mod_lt t.nanos (by decide : 0 < 1000000000)), hoffset,
    Option.bind_eq_bind, Option.bind_some, List.all_nil, if_true]
  exact ofParts?_eq h

end Timestamp
end Intake
