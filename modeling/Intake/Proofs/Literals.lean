import Intake.Json

/-!
# JSON that is read as it was written

A string that was written is read back as the same text, whatever stands in it and whatever
follows it: `Json.stringFrom_writeString`. So is an object whose members were written one after
the other with commas between them, provided that each member's value is read back. That is
what `Json.Writes` says of a value's text, whatever follows it there.
-/

namespace Intake.Json

/-! ## Strings -/

theorem hexadecimal?_hexPadded : ∀ n < 32, Text.hexadecimal? (Text.hexPadded 4 n) = some n := by
  decide

/-- However a character is written, it is read as one unit. -/
theorem stringFrom_escapeChar (units : List Nat) (c : Char) (rest : List Char) :
    stringFrom units (escapeChar c ++ rest) = stringFrom (c.toNat :: units) rest := by
  unfold escapeChar
  split
  · subst_vars; rfl
  split
  · subst_vars; rfl
  split
  · subst_vars; rfl
  split
  · subst_vars; rfl
  split
  · subst_vars; rfl
  split
  · rename_i h
    rw [h]
    rfl
  split
  · rename_i h
    rw [h]
    rfl
  split
  · rename_i hcontrol
    have hhex := hexadecimal?_hexPadded c.toNat hcontrol
    show stringFrom units ('\\' :: 'u' :: (Text.hexPadded 4 c.toNat ++ rest)) = _
    simp only [Text.hexPadded, List.nil_append, List.cons_append] at hhex ⊢
    rw [stringFrom, hhex]
  · rename_i hquote hslash _ _ _ _ _ hcontrol
    rw [List.singleton_append, stringFrom]
    · simp [hslash, hcontrol]
    · exact hquote
    · simp [hslash]
    · simp [hslash]

theorem stringFrom_flatMap (units : List Nat) (cs rest : List Char) :
    stringFrom units (cs.flatMap escapeChar ++ rest)
      = stringFrom ((cs.map Char.toNat).reverse ++ units) rest := by
  induction cs generalizing units with
  | nil => rfl
  | cons c cs ih =>
      rw [List.flatMap_cons, List.append_assoc, stringFrom_escapeChar, ih]
      simp

/-- The units of whole characters give these characters. -/
theorem joinUnits_map (done cs : List Char) :
    joinUnits done (cs.map Char.toNat) = some (String.ofList (done.reverse ++ cs)) := by
  induction cs generalizing done with
  | nil => simp [joinUnits]
  | cons c cs ih =>
      -- a character is no half of a surrogate pair
      have hvalid : c.toNat < 0xD800 ∨ 0xDFFF < c.toNat := by
        have h := c.valid
        simp only [UInt32.isValidChar, Nat.isValidChar] at h
        show c.val.toNat < _ ∨ _ < c.val.toNat
        omega
      have hhigh : ¬ ((decide (0xD800 ≤ c.toNat) && decide (c.toNat < 0xDC00)) = true) := by
        rw [Bool.and_eq_true, decide_eq_true_eq, decide_eq_true_eq]
        omega
      have hlow : ¬ ((decide (0xDC00 ≤ c.toNat) && decide (c.toNat < 0xE000)) = true) := by
        rw [Bool.and_eq_true, decide_eq_true_eq, decide_eq_true_eq]
        omega
      rw [List.map_cons, joinUnits.eq_def]
      dsimp only
      rw [if_neg hhigh, if_neg hlow, ih, Char.ofNat_toNat]
      simp

/-- **A string is read as it was written**, whatever follows its closing quote. -/
theorem stringFrom_writeString (s : String) (rest : List Char) :
    stringFrom [] (s.toList.flatMap escapeChar ++ '"' :: rest) = some (some s, rest) := by
  rw [stringFrom_flatMap, List.append_nil, stringFrom, List.reverse_reverse, joinUnits_map]
  simp

/-- Where no character needs an escape, a text is written as it is. -/
theorem flatMap_plain {cs : List Char} (h : ∀ c ∈ cs, escapeChar c = [c]) :
    cs.flatMap escapeChar = cs := by
  induction cs with
  | nil => rfl
  | cons c cs ih =>
      rw [List.flatMap_cons, h c List.mem_cons_self, ih fun x hx => h x (List.mem_cons_of_mem _ hx)]
      rfl

/-- No line end stands in what is written for a character. -/
theorem escapeChar_inline (c : Char) : '\n' ∉ escapeChar c ∧ '\r' ∉ escapeChar c := by
  have hhex : ∀ n < 32, '\n' ∉ Text.hexPadded 4 n ∧ '\r' ∉ Text.hexPadded 4 n := by decide
  unfold escapeChar
  split; · decide
  split; · decide
  split; · decide
  split; · decide
  split; · decide
  split; · decide
  split; · decide
  split
  · rename_i hcontrol
    have h := hhex c.toNat hcontrol
    simpa using h
  · rename_i hn hr _ _ _ _
    simp [Ne.symm hn, Ne.symm hr]

/-- Holds of a text without line ends. -/
def Inline (cs : List Char) : Prop :=
  '\n' ∉ cs ∧ '\r' ∉ cs

theorem inline_nil : Inline [] := ⟨List.not_mem_nil, List.not_mem_nil⟩

theorem Inline.cons {c : Char} {cs : List Char} (hn : '\n' ≠ c) (hr : '\r' ≠ c)
    (hc : Inline cs) : Inline (c :: cs) :=
  ⟨fun h => (List.mem_cons.mp h).elim hn hc.1, fun h => (List.mem_cons.mp h).elim hr hc.2⟩

theorem Inline.append {cs ds : List Char} (hc : Inline cs) (hd : Inline ds) :
    Inline (cs ++ ds) :=
  ⟨fun h => (List.mem_append.mp h).elim hc.1 hd.1, fun h => (List.mem_append.mp h).elim hc.2 hd.2⟩

theorem inline_writeString (s : String) : Inline (writeString s) := by
  have hbody : Inline (s.toList.flatMap escapeChar) := by
    refine ⟨fun h => ?_, fun h => ?_⟩
    · obtain ⟨c, _, hc⟩ := List.mem_flatMap.mp h
      exact (escapeChar_inline c).1 hc
    · obtain ⟨c, _, hc⟩ := List.mem_flatMap.mp h
      exact (escapeChar_inline c).2 hc
  exact .cons (by decide) (by decide)
    (hbody.append (.cons (by decide) (by decide) inline_nil))

/-! ## Values -/

/-- Holds of a text that is read as a value, whatever follows it. -/
structure Writes (cs : List Char) (v : Json) : Prop where
  value : ∀ fuel rest, value (fuel + 1) (cs ++ rest) = some (v, rest)
  /-- There is no blank in front. -/
  skip : ∀ rest, skip (cs ++ rest) = cs ++ rest
  inline : Inline cs

theorem writes_string (s : String) : Writes (writeString s) (.string (some s)) where
  value := by
    intro fuel rest
    have htext : writeString s ++ rest = '"' :: (s.toList.flatMap escapeChar ++ '"' :: rest) := by
      simp [writeString]
    rw [htext, Json.value, stringFrom_writeString]
  skip := fun _ => rfl
  inline := inline_writeString s

theorem writes_null : Writes ['n', 'u', 'l', 'l'] .null where
  value := fun fuel rest => by
    show Json.value (fuel + 1) ('n' :: 'u' :: 'l' :: 'l' :: rest) = _
    rw [Json.value]
  skip := fun _ => rfl
  inline := by
    unfold Inline
    decide

/-! ## Objects -/

/-- A member of an object, with what is written for its value. -/
structure Member where
  key : String
  text : List Char
  value : Json

namespace Member

/-- What is written for a member. -/
def chars (m : Member) : List Char :=
  writeString m.key ++ [':'] ++ m.text

/-- What is read. -/
def pair (m : Member) : Option String × Json :=
  (some m.key, m.value)

end Member

/-- What is written for some members. -/
def writeMembers (ms : List Member) : List Char :=
  [','].intercalate (ms.map Member.chars)

theorem writeMembers_singleton (m : Member) : writeMembers [m] = m.chars := by
  simp [writeMembers, List.intercalate]

theorem writeMembers_cons (m : Member) {ms : List Member} (hms : ms ≠ []) :
    writeMembers (m :: ms) = m.chars ++ ',' :: writeMembers ms := by
  cases ms with
  | nil => exact absurd rfl hms
  | cons m' ms => simp [writeMembers, List.intercalate]

/-- Members take more than one character each. -/
theorem length_le_writeMembers (ms : List Member) : ms.length ≤ (writeMembers ms).length := by
  induction ms with
  | nil => exact Nat.zero_le _
  | cons m ms ih =>
      have hm : 1 ≤ m.chars.length := by
        simp only [Member.chars, List.length_append, List.length_singleton]
        omega
      by_cases hms : ms = []
      · subst hms
        rw [writeMembers_singleton]
        exact hm
      · rw [writeMembers_cons m hms, List.length_append, List.length_cons, List.length_cons]
        omega

/-- The first character of a member is the quote in front of its key. -/
theorem writeMembers_head {ms : List Member} (hms : ms ≠ []) :
    ∃ r, writeMembers ms = '"' :: r := by
  obtain ⟨m, ms, rfl⟩ := List.exists_cons_of_ne_nil hms
  cases ms with
  | nil => exact ⟨_, rfl⟩
  | cons m' ms => exact ⟨_, rfl⟩

theorem skip_writeMembers {ms : List Member} (hms : ms ≠ []) (rest : List Char) :
    skip (writeMembers ms ++ rest) = writeMembers ms ++ rest := by
  obtain ⟨r, hr⟩ := writeMembers_head hms
  rw [hr]
  rfl

/-- **Members are read as they were written**, behind those that were read before. -/
theorem members_writeMembers {ms : List Member} (hms : ms ≠ [])
    (hw : ∀ m ∈ ms, Writes m.text m.value) {fuel : Nat} (hfuel : ms.length < fuel)
    (done : List (Option String × Json)) (rest : List Char) :
    members fuel done (writeMembers ms ++ '\x7d' :: rest)
      = some (object (done.reverse ++ ms.map Member.pair), rest) := by
  induction ms generalizing fuel done with
  | nil => exact absurd rfl hms
  | cons m ms ih =>
      have hm := hw m List.mem_cons_self
      obtain ⟨n, rfl⟩ : ∃ n, fuel = n + 2 := ⟨fuel - 2, by simp at hfuel; omega⟩
      have hmember : ∀ tail, m.chars ++ tail
          = '"' :: (m.key.toList.flatMap escapeChar ++ '"' :: ':' :: (m.text ++ tail)) := by
        intro tail
        simp [Member.chars, writeString]
      have hcolon : ∀ r, skip (':' :: r) = ':' :: r := fun _ => rfl
      by_cases hlast : ms = []
      · subst hlast
        rw [writeMembers_singleton, hmember, members, stringFrom_writeString]
        simp only [hcolon, hm.skip, hm.value]
        simp [skip, isSpace, Member.pair]
      · rw [writeMembers_cons m hlast, List.append_assoc, hmember, members,
          stringFrom_writeString]
        simp only [hcolon, hm.skip, hm.value]
        show members (n + 1) _ (skip (writeMembers ms ++ '\x7d' :: rest)) = _
        rw [skip_writeMembers hlast,
          ih hlast (fun x hx => hw x (List.mem_cons_of_mem _ hx)) (by simp at hfuel; omega)]
        simp [Member.pair]

/-- **An object is read as it was written.** -/
theorem read?_object {ms : List Member} (hms : ms ≠ []) (hw : ∀ m ∈ ms, Writes m.text m.value) :
    read? (String.ofList ('\x7b' :: (writeMembers ms ++ ['\x7d'])))
      = some (object (ms.map Member.pair)) := by
  obtain ⟨n, hn⟩ : ∃ n, 2 * ('\x7b' :: (writeMembers ms ++ ['\x7d'])).length + 2 = n + 1 := ⟨_, rfl⟩
  have hfuel : ms.length < n := by
    have h := length_le_writeMembers ms
    simp only [List.length_cons, List.length_append, List.length_nil] at hn
    omega
  -- the members begin with a quote, so the object is not the empty one
  have hvalue : value (n + 1) (skip ('\x7b' :: (writeMembers ms ++ ['\x7d'])))
      = members n [] (writeMembers ms ++ ['\x7d']) := by
    show value (n + 1) ('\x7b' :: (writeMembers ms ++ ['\x7d'])) = _
    obtain ⟨r, hr⟩ := writeMembers_head hms
    rw [hr, value]
    rfl
  unfold read?
  rw [String.toList_ofList]
  dsimp only
  rw [hn, hvalue, members_writeMembers hms hw hfuel]
  rfl

theorem inline_writeMembers {ms : List Member} (hw : ∀ m ∈ ms, Writes m.text m.value) :
    Inline (writeMembers ms) := by
  induction ms with
  | nil => exact inline_nil
  | cons m ms ih =>
      have hm : Inline m.chars :=
        ((inline_writeString m.key).append (.cons (by decide) (by decide) inline_nil)).append
          (hw m List.mem_cons_self).inline
      by_cases hlast : ms = []
      · subst hlast
        rw [writeMembers_singleton]
        exact hm
      · rw [writeMembers_cons m hlast]
        exact hm.append (.cons (by decide) (by decide)
          (ih fun x hx => hw x (List.mem_cons_of_mem _ hx)))

end Intake.Json
