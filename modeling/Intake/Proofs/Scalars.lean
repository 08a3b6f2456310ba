import Intake.Proofs.Instants
import Intake.Toml.Reader
import Intake.Toml.Writer

/-!
# TOML scalars that are read as they were written

A string in double quotes has one escape or one character for each of its own, so it is read
back whatever stands in it. A word is told apart by trying in turn what it could be: what was
written for a number is no date, since a date has a dash or a colon where a number has neither,
and no float, since nothing stands behind its digits. `value_writeScalar` is for the values that
a line can hold: strings, truth values, and the numbers of 64 bits with sign.
-/

namespace Intake.Toml

/-- Holds of the whole numbers of 64 bits with sign. -/
def IsWide (n : Int) : Prop :=
  -(integerBound : Int) ≤ n ∧ n < integerBound

/-- Holds of the values that can be written on a line. -/
inductive Scalar : Toml → Prop where
  | string (s : String) : Scalar (.string s)
  | integer {n : Int} (wide : IsWide n) : Scalar (.integer n)
  | boolean (b : Bool) : Scalar (.boolean b)

/-! ## Strings -/

theorem hexadecimal?_hexPadded :
    ∀ n < 128, Text.hexadecimal? (Text.hexPadded 4 n) = some n := by
  decide

theorem escape_hexPadded {n : Nat} (hn : n < 128) (rest : List Char) :
    escape ('u' :: (Text.hexPadded 4 n ++ rest)) = some (Char.ofNat n, rest) := by
  have hhex := hexadecimal?_hexPadded n hn
  have hscalar : scalar? n = some (Char.ofNat n) := if_pos (by simp; omega)
  simp only [Text.hexPadded, List.nil_append, List.cons_append] at hhex ⊢
  simp [escape, hhex, hscalar]

/-- However a character is written, it is read as one. -/
theorem basicFrom_escapeChar (done : List Char) (fuel : Nat) (c : Char) (rest : List Char) :
    basicFrom done (fuel + 1) (escapeChar c ++ rest) = basicFrom (c :: done) fuel rest := by
  unfold escapeChar
  split
  · subst_vars; rfl
  split
  · subst_vars; rfl
  split
  · subst_vars; rfl
  split
  · subst_vars; rfl
  split
  · subst_vars; rfl
  split
  · rename_i hcontrol
    have hn : c.toNat < 128 := by
      simp only [Bool.or_eq_true, decide_eq_true_eq] at hcontrol
      omega
    have hread := escape_hexPadded hn rest
    rw [Char.ofNat_toNat] at hread
    show basicFrom done (fuel + 1) ('\\' :: 'u' :: (Text.hexPadded 4 c.toNat ++ rest)) = _
    rw [basicFrom, hread]
  · rename_i hquote hslash _ _ _ hcontrol
    have hshown : isShown c = true := by
      simp only [Bool.or_eq_true, decide_eq_true_eq, not_or] at hcontrol
      simp only [isShown, Bool.or_eq_true, Bool.and_eq_true, decide_eq_true_eq]
      omega
    rw [List.singleton_append, basicFrom, if_pos hshown]
    · exact hquote
    · exact hslash

theorem basicFrom_flatMap (done : List Char) (fuel : Nat) (cs rest : List Char) :
    basicFrom done (cs.length + fuel) (cs.flatMap escapeChar ++ rest)
      = basicFrom (cs.reverse ++ done) fuel rest := by
  induction cs generalizing done with
  | nil => simp
  | cons c cs ih =>
      have hfuel : (c :: cs).length + fuel = cs.length + fuel + 1 := by
        rw [List.length_cons]
        omega
      rw [List.flatMap_cons, List.append_assoc, hfuel, basicFrom_escapeChar, ih]
      simp

theorem escapeChar_head (c : Char) : ∃ x xs, escapeChar c = x :: xs ∧ x ≠ '"' := by
  unfold escapeChar
  repeat' split
  all_goals first
    | exact ⟨_, _, rfl, by decide⟩
    | exact ⟨_, _, rfl, ‹_›⟩

theorem length_le_flatMap (cs : List Char) : cs.length ≤ (cs.flatMap escapeChar).length := by
  induction cs with
  | nil => exact Nat.le_refl _
  | cons c cs ih =>
      obtain ⟨x, xs, hx, -⟩ := escapeChar_head c
      rw [List.flatMap_cons, hx, List.length_append, List.length_cons, List.length_cons]
      omega

/-- **A string is read as it was written**, at the end of its line. -/
theorem stringValue_writeString (s : String) (rest : List Char) :
    stringValue (writeString s ++ '\n' :: rest) = some (s, '\n' :: rest) := by
  have hlong : stringValue (writeString s ++ '\n' :: rest)
      = basicFrom [] ((s.toList.flatMap escapeChar ++ '"' :: '\n' :: rest).length + 1)
          (s.toList.flatMap escapeChar ++ '"' :: '\n' :: rest) := by
    have htext : writeString s ++ '\n' :: rest
        = '"' :: (s.toList.flatMap escapeChar ++ '"' :: '\n' :: rest) := by
      simp [writeString]
    rw [htext]
    -- no three quotes stand at the front: an empty string has two, and no escape is a quote
    cases s.toList with
    | nil => rfl
    | cons c cs =>
        obtain ⟨x, xs, hx, hquote⟩ := escapeChar_head c
        rw [List.flatMap_cons, hx, List.cons_append, List.cons_append, stringValue]
        intro r h
        exact absurd (List.cons.inj h).1 hquote
  have hmore : s.toList.length
      < (s.toList.flatMap escapeChar ++ '"' :: '\n' :: rest).length + 1 := by
    have hlen := length_le_flatMap s.toList
    rw [List.length_append]
    omega
  obtain ⟨fuel, hfuel⟩ := Nat.exists_eq_add_of_lt hmore
  rw [Nat.add_assoc] at hfuel
  rw [hlong, hfuel, basicFrom_flatMap, basicFrom]
  simp

/-! ## Words -/

theorem isWordChar_of_isDecimal {c : Char} (h : isDecimal c = true) : isWordChar c = true := by
  simp [isWordChar, h]

/-- A word ends with its line. -/
theorem word_line {w : List Char} (hw : ∀ c ∈ w, isWordChar c = true) (rest : List Char) :
    word (w ++ '\n' :: rest) = (w, '\n' :: rest) := by
  have htake : (w ++ '\n' :: rest).takeWhile isWordChar = w := by
    rw [List.takeWhile_append_of_pos hw, List.takeWhile_cons_of_neg (by decide), List.append_nil]
  have hdrop : (w ++ '\n' :: rest).dropWhile isWordChar = '\n' :: rest := by
    rw [List.dropWhile_append_of_pos hw, List.dropWhile_cons_of_neg (by decide)]
  unfold word
  rw [htake, hdrop]
  dsimp only
  split
  · rename_i heq
    exact absurd (List.cons.inj heq).1 (by decide)
  · rfl

/-- What starts like a word is read as one. -/
theorem value_word (depth fuel : Nat) {c : Char} (hc : isWordChar c = true) (r : List Char) :
    value depth (fuel + 1) (c :: r) = wordValue (c :: r) := by
  have hother : ∀ {d : Char} {s : List Char}, isWordChar d = false → c :: r ≠ d :: s := by
    rintro d s hd heq
    rw [(List.cons.inj heq).1, hd] at hc
    cases hc
  rw [value.eq_def]
  dsimp only
  split
  · rename_i heq
    exact absurd heq (hother (by decide))
  · rename_i heq
    exact absurd heq (hother (by decide))
  · rename_i heq
    exact absurd heq (hother (by decide))
  · rename_i heq
    exact absurd heq (hother (by decide))
  · rfl

/-! ## Numbers -/

/-- Holds of the digits of a number. -/
def Digits (ds : List Char) : Prop :=
  ds ≠ [] ∧ ∀ c ∈ ds, isDecimal c = true

theorem Digits.not_mem {ds : List Char} (h : Digits ds) {c : Char} (hc : isDecimal c = false) :
    c ∉ ds := by
  intro hmem
  rw [h.2 c hmem] at hc
  exact absurd hc (by decide)

theorem fixedDigits_eq {n : Nat} {cs r : List Char} {v : Nat}
    (h : fixedDigits n cs = some (v, r)) : r = cs.drop n := by
  unfold fixedDigits at h
  dsimp only at h
  split at h
  · cases h
  · obtain ⟨_, _, hsome⟩ := Option.bind_eq_some_iff.mp h
    cases hsome
    rfl

/-- A time has a colon. -/
theorem time?_none {cs : List Char} (h : ':' ∉ cs) : time? cs = none := by
  unfold time?
  cases hfirst : fixedDigits 2 cs with
  | none => rfl
  | some vr =>
      obtain ⟨v, r⟩ := vr
      have hr := fixedDigits_eq hfirst
      dsimp only [Option.bind_eq_bind, Option.bind_some]
      split
      · exact absurd (List.mem_of_mem_drop (hr ▸ List.mem_cons_self)) h
      · rfl

/-- A date has a dash behind its year. -/
theorem date?_none {cs : List Char} (h : '-' ∉ cs.drop 4) : date? cs = none := by
  unfold date?
  cases hfirst : fixedDigits 4 cs with
  | none => rfl
  | some vr =>
      obtain ⟨v, r⟩ := vr
      have hr := fixedDigits_eq hfirst
      dsimp only [Option.bind_eq_bind, Option.bind_some]
      split
      · exact absurd (hr ▸ List.mem_cons_self) h
      · rfl

/-- Digits behind a minus, or alone. -/
def signed (negative : Bool) (ds : List Char) : List Char :=
  if negative then '-' :: ds else ds

theorem not_mem_signed (negative : Bool) {ds : List Char} (hds : Digits ds) {c : Char}
    (hc : isDecimal c = false) (hdash : c ≠ '-') : c ∉ signed negative ds := by
  have hmem := hds.not_mem hc
  cases negative with
  | false => exact hmem
  | true => exact fun h => (List.mem_cons.mp h).elim hdash hmem

theorem isWordChar_signed (negative : Bool) {ds : List Char} (hds : Digits ds) :
    ∀ c ∈ signed negative ds, isWordChar c = true := by
  have hall : ∀ c ∈ ds, isWordChar c = true := fun c hc => isWordChar_of_isDecimal (hds.2 c hc)
  cases negative with
  | false => exact hall
  | true => exact fun c hc => (List.mem_cons.mp hc).elim (fun h => h ▸ by decide) (hall c)

theorem signOf_signed (negative : Bool) {ds : List Char} (hds : Digits ds) :
    signOf (signed negative ds) = (negative, ds) := by
  cases negative with
  | true => rfl
  | false =>
      have hminus : '-' ∉ ds := hds.not_mem (by decide)
      have hplus : '+' ∉ ds := hds.not_mem (by decide)
      unfold signed signOf
      rw [if_neg (by decide)]
      split
      · exact absurd List.mem_cons_self hminus
      · exact absurd List.mem_cons_self hplus
      · rfl

/-- What was written for a number is no date. -/
theorem isDatetime_signed (negative : Bool) {ds : List Char} (hds : Digits ds) :
    isDatetime (signed negative ds) = false := by
  have hcolon : ':' ∉ signed negative ds := not_mem_signed negative hds (by decide) (by decide)
  -- a minus stands where a date has its year
  have hdash : '-' ∉ (signed negative ds).drop 4 := by
    have hmem : '-' ∉ ds := hds.not_mem (by decide)
    cases negative with
    | false => exact fun h => hmem (List.mem_of_mem_drop h)
    | true => exact fun h => hmem (List.mem_of_mem_drop (i := 3) h)
  unfold isDatetime
  rw [time?_none hcolon, date?_none hdash]

/-- What was written for a number is no float: it is over when its digits are. -/
theorem isFloat_signed (negative : Bool) {ds : List Char} (hds : Digits ds) :
    isFloat (signed negative ds) = false := by
  have hall : ∀ c ∈ ds, (isDecimal c || decide (c = '_')) = true :=
    fun c hc => by rw [hds.2 c hc, Bool.true_or]
  have htake : ds.takeWhile (fun c => isDecimal c || c = '_') = ds := by
    simpa using @List.takeWhile_append_of_pos _ _ ds [] hall
  have hdrop : ds.dropWhile (fun c => isDecimal c || c = '_') = [] := by
    simpa using @List.dropWhile_append_of_pos _ _ ds [] hall
  have hname : (ds == "inf".toList || ds == "nan".toList) = false := by
    have hn : 'n' ∉ ds := hds.not_mem (by decide)
    rw [Bool.or_eq_false_iff, beq_eq_false_iff_ne, beq_eq_false_iff_ne]
    exact ⟨fun h => hn (h ▸ by decide), fun h => hn (h ▸ by decide)⟩
  unfold isFloat
  rw [signOf_signed negative hds]
  dsimp only
  rw [if_neg (by rw [hname]; decide), htake, hdrop]
  dsimp only
  split <;> rfl

theorem spacedDigits_eq {ds : List Char} (hds : Digits ds) :
    spacedDigits isDecimal ds = some ds := by
  have hgo : ∀ (ds done : List Char), (∀ c ∈ ds, isDecimal c = true) →
      spacedDigits.go isDecimal done ds = some (done.reverse ++ ds) := by
    intro ds
    induction ds with
    | nil =>
        intro done _
        rw [spacedDigits.go, List.append_nil]
    | cons d ds ih =>
        intro done hall
        have hd := hall d List.mem_cons_self
        rw [spacedDigits.go, if_pos hd, ih _ fun c hc => hall c (List.mem_cons_of_mem _ hc)]
        · simp
        · rintro e r rfl rfl
          exact absurd hd (by decide)
  unfold spacedDigits
  rw [if_neg (by simpa using hds.1), hgo ds [] hds.2]
  rfl

/-- Digits that do not start with a zero for nothing are the number they write. -/
theorem integer?_signed (negative : Bool) {ds : List Char} {n : Nat} (hds : Digits ds)
    (hzero : ∀ c r, ds ≠ '0' :: c :: r) (hn : Text.decimal? ds = some n) :
    integer? (signed negative ds) = inRange (if negative then -(n : Int) else n) := by
  have hx : 'x' ∉ signed negative ds := not_mem_signed negative hds (by decide) (by decide)
  have ho : 'o' ∉ signed negative ds := not_mem_signed negative hds (by decide) (by decide)
  have hb : 'b' ∉ signed negative ds := not_mem_signed negative hds (by decide) (by decide)
  have hdigits : decimalDigits ds = some ds := by
    unfold decimalDigits
    rw [spacedDigits_eq hds]
    dsimp only [Option.bind_eq_bind, Option.bind_some]
    split
    · exact absurd rfl (hzero _ _)
    · rfl
  unfold integer?
  split
  · rename_i heq
    exact absurd (heq ▸ by simp) hx
  · rename_i heq
    exact absurd (heq ▸ by simp) ho
  · rename_i heq
    exact absurd (heq ▸ by simp) hb
  · rw [signOf_signed negative hds]
    dsimp only
    rw [hdigits, Option.bind_eq_bind, Option.bind_some, hn]
    rfl

/-! ## Digits of a number -/

theorem digits_toDigits (n : Nat) : Digits (Nat.toDigits 10 n) := by
  refine ⟨Nat.toDigits_ne_nil, fun c hc => ?_⟩
  have hdigit := Nat.isDigit_of_mem_toDigits (by decide) (by decide) hc
  simpa [isDecimal, Char.isDigit, Char.le_def] using hdigit

theorem digit?_digitChar : ∀ d < 10, Text.digit? d.digitChar = some d := by
  decide

theorem decimal?_toDigits (n : Nat) : Text.decimal? (Nat.toDigits 10 n) = some n := by
  have hfrom : Text.numeralFrom Text.digit? 10 0 (Nat.toDigits 10 n) = some n := by
    induction n using Nat.strongRecOn with
    | ind n ih =>
        by_cases hone : n < 10
        · rw [Nat.toDigits_of_lt_base hone, Text.numeralFrom, digit?_digitChar n hone]
          simp [Text.numeralFrom]
        · rw [Nat.toDigits_of_base_le (by decide) (by omega), Text.numeralFrom_append,
            ih (n / 10) (by omega), Option.bind_some, Text.numeralFrom,
            digit?_digitChar _ (Nat.mod_lt _ (by decide))]
          show some (n / 10 * 10 + n % 10) = some n
          rw [Nat.div_add_mod']
  unfold Text.decimal?
  rw [if_neg (by simp), hfrom]

/-- A number that is not zero does not start with a zero. -/
theorem head?_toDigits {n : Nat} (hn : 0 < n) : (Nat.toDigits 10 n).head? ≠ some '0' := by
  have hdigit : ∀ d < 10, 0 < d → d.digitChar ≠ '0' := by decide
  induction n using Nat.strongRecOn with
  | ind n ih =>
      by_cases hone : n < 10
      · rw [Nat.toDigits_of_lt_base hone]
        simpa using hdigit n hone hn
      · have hfront := ih (n / 10) (by omega) (by omega)
        rw [Nat.toDigits_of_base_le (by decide) (by omega)]
        cases hds : Nat.toDigits 10 (n / 10) with
        | nil => exact absurd hds Nat.toDigits_ne_nil
        | cons c r =>
            rw [hds] at hfront
            exact hfront

theorem toDigits_ne {n : Nat} (c : Char) (r : List Char) :
    Nat.toDigits 10 n ≠ '0' :: c :: r := by
  intro h
  rcases Nat.eq_zero_or_pos n with rfl | hn
  · rw [Nat.toDigits_zero] at h
    cases h
  · exact head?_toDigits hn (by rw [h]; rfl)

/-- A whole number is written as a sign and digits. -/
theorem toList_toString (n : Int) :
    (toString n).toList = signed (decide (n < 0)) (Nat.toDigits 10 n.natAbs) := by
  cases n with
  | ofNat n =>
      show n.repr.toList = _
      rw [Nat.toList_repr]
      simp [signed]
  | negSucc n =>
      show ("-" ++ (n + 1).repr).toList = _
      rw [String.toList_append, Nat.toList_repr]
      simp [signed, Int.negSucc_lt_zero]

/-- **A number of 64 bits with sign is read as it was written.** -/
theorem wordValue_toString {n : Int} (wide : IsWide n) (rest : List Char) :
    wordValue ((toString n).toList ++ '\n' :: rest) = some (.integer n, '\n' :: rest) := by
  have hds := digits_toDigits n.natAbs
  have hint : integer? ((toString n).toList) = some n := by
    have hvalue : (if decide (n < 0) = true then -(n.natAbs : Int) else n.natAbs) = n := by
      by_cases hn : n < 0
      · rw [if_pos (decide_eq_true hn)]
        omega
      · rw [if_neg (by simpa using hn)]
        omega
    rw [toList_toString, integer?_signed _ hds toDigits_ne (decimal?_toDigits _), hvalue]
    exact if_pos (by simp [wide.1, wide.2])
  have hname : ∀ name : List Char, 'e' ∈ name → ((toString n).toList == name) = false := by
    intro name hmem
    rw [toList_toString, beq_eq_false_iff_ne]
    rintro rfl
    exact not_mem_signed _ hds (by decide) (by decide) hmem
  unfold wordValue
  rw [word_line (by rw [toList_toString]; exact isWordChar_signed _ hds)]
  dsimp only
  rw [hname _ (by decide), hname _ (by decide), hint, toList_toString, isDatetime_signed _ hds,
    isFloat_signed _ hds]
  rfl

theorem wordValue_flag (b : Bool) (rest : List Char) :
    wordValue ((if b then "true" else "false").toList ++ '\n' :: rest)
      = some (.boolean b, '\n' :: rest) := by
  have hword : (if b then "true" else "false").toList.all isWordChar = true := by
    cases b <;> rfl
  unfold wordValue
  rw [word_line (List.all_eq_true.mp hword)]
  cases b <;> rfl

/-! ## Values -/

theorem toString_head (n : Int) :
    ∃ c r, (toString n).toList = c :: r ∧ isWordChar c = true := by
  have hds := digits_toDigits n.natAbs
  have hword := isWordChar_signed (decide (n < 0)) hds
  rw [← toList_toString] at hword
  cases htext : (toString n).toList with
  | nil =>
      have hnil := htext
      rw [toList_toString] at hnil
      unfold signed at hnil
      split at hnil
      · cases hnil
      · exact absurd hnil hds.1
  | cons c r => exact ⟨c, r, rfl, hword c (htext ▸ List.mem_cons_self)⟩

theorem writeScalar_head {v : Toml} (hv : Scalar v) :
    ∃ c r, writeScalar v = c :: r ∧ isSpace c = false := by
  cases hv with
  | string s => exact ⟨'"', _, rfl, by decide⟩
  | @integer n wide =>
      obtain ⟨c, r, hc, hword⟩ := toString_head n
      refine ⟨c, r, hc, ?_⟩
      cases hspace : isSpace c with
      | false => rfl
      | true =>
          simp only [isSpace, Bool.or_eq_true, decide_eq_true_eq] at hspace
          rcases hspace with rfl | rfl <;> exact absurd hword (by decide)
  | boolean b =>
      cases b with
      | false => exact ⟨'f', _, rfl, by decide⟩
      | true => exact ⟨'t', _, rfl, by decide⟩

/-- What a value is written with does not start with a blank. -/
theorem skipSpace_writeScalar {v : Toml} (hv : Scalar v) (rest : List Char) :
    skipSpace (writeScalar v ++ rest) = writeScalar v ++ rest := by
  obtain ⟨c, r, hc, hspace⟩ := writeScalar_head hv
  rw [hc, List.cons_append, skipSpace, List.dropWhile_cons_of_neg (by simp [hspace])]

/-- **A value is read as it was written**, up to the end of its line. -/
theorem value_writeScalar {v : Toml} (hv : Scalar v) (depth fuel : Nat) (rest : List Char) :
    value depth (fuel + 1) (writeScalar v ++ '\n' :: rest) = some (v, '\n' :: rest) := by
  cases hv with
  | string s =>
      have hread := stringValue_writeString s rest
      rw [writeString, List.cons_append] at hread
      rw [writeScalar, writeString, List.cons_append, value, hread]
      rfl
  | @integer n wide =>
      have hread := wordValue_toString wide rest
      obtain ⟨c, r, hc, hword⟩ := toString_head n
      rw [writeScalar, hc, List.cons_append, value_word _ _ hword]
      rw [hc] at hread
      exact hread
  | boolean b =>
      have hread := wordValue_flag b rest
      cases b with
      | false => exact (value_word depth fuel (by decide) _).trans hread
      | true => exact (value_word depth fuel (by decide) _).trans hread

end Intake.Toml
