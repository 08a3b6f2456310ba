import Intake.Proofs.Renderings

/-!
# Previews

A preview asks for some number of records and reads no further. It shows what the whole table
begins with: where the scan stops early, going on could only have added records behind those that
are finished. This needs nothing of the text. Quotes may stay open, the delimiter may be any
character, a quote or a line end among them, and the limit may be zero or more than there is.

`scan_none` says what a scan without a limit comes to from any state; `scan_some` compares it
with one that stops.
-/

namespace Intake.Delimited

variable {d : Char} {s : Scan}

/-! ## Finished records -/

theorem Scan.record_ne_nil (s : Scan) : s.record ≠ [] := by
  simp [record]

/-- What can become of the finished records when a character is read: one more is finished, or
none. -/
inductive Scan.Adds (s : Scan) : List Record → Prop
  | nothing : s.Adds s.done
  | record : s.Adds (s.record :: s.done)

theorem bareStep_adds (d : Char) (next : Option Char) (s : Scan) (c : Char) :
    s.Adds (bareStep d next s c).2.done := by
  unfold bareStep
  split
  · exact .nothing
  · split
    · exact .nothing
    · split
      · by_cases hs : s.atLineStart = true
        · rw [if_pos hs]
          exact .nothing
        · rw [if_neg hs]
          exact .record
      · split <;> exact .nothing

theorem step_adds (d : Char) (next : Option Char) (mode : Mode) (s : Scan) (c : Char) :
    s.Adds (step d next mode s c).2.done := by
  unfold step
  cases mode with
  | bare => exact bareStep_adds d next s c
  | quoted =>
      dsimp only
      split <;> exact .nothing
  | closing =>
      dsimp only
      split
      · exact .nothing
      · split
        · exact bareStep_adds d next s c
        · exact .nothing

/-- The text may end within a record, which is then finished, too. -/
theorem Scan.finish_eq (s : Scan) :
    s.finish = s.done.reverse ∨ s.finish = s.done.reverse ++ [s.record] := by
  unfold finish
  by_cases hs : s.atLineStart = true
  · rw [if_pos hs]
    exact Or.inl rfl
  · rw [if_neg hs, endRecord_eq]
    exact Or.inr (List.reverse_cons ..)

/-! ## The scan, with a limit and without -/

/-- **A scan adds to the finished records**, and whatever it adds has a field. -/
theorem scan_none (d : Char) (mode : Mode) (s : Scan) (cs : List Char) :
    ∃ more, scan d none mode s cs = s.done.reverse ++ more ∧ ∀ r ∈ more, r ≠ [] := by
  induction cs generalizing mode s with
  | nil =>
      rcases s.finish_eq with h | h
      · exact ⟨[], h.trans (List.append_nil _).symm, List.forall_mem_nil _⟩
      · exact ⟨[s.record], h, List.forall_mem_singleton.mpr s.record_ne_nil⟩
  | cons c cs ih =>
      obtain ⟨more, hscan, hmore⟩ :=
        ih (step d cs.head? mode s c).1 (step d cs.head? mode s c).2
      rw [scan_cons, hscan]
      have hadds := step_adds d cs.head? mode s c
      generalize (step d cs.head? mode s c).2.done = done at hadds ⊢
      cases hadds with
      | nothing => exact ⟨more, rfl, hmore⟩
      | record =>
          refine ⟨s.record :: more, ?_, List.forall_mem_cons.mpr ⟨s.record_ne_nil, hmore⟩⟩
          rw [List.reverse_cons, List.append_assoc]
          rfl

/-- **A scan that stops shows the first records of one that does not.** It has fewer than enough
as long as it goes on, so it stops with exactly as many as are asked for. -/
theorem scan_some {n : Nat} (mode : Mode) (hs : s.done.length < n) (cs : List Char) :
    scan d (some n) mode s cs = (scan d none mode s cs).take n := by
  induction cs generalizing mode s with
  | nil =>
      show s.finish = s.finish.take n
      refine (List.take_of_length_le ?_).symm
      rcases s.finish_eq with h | h <;> rw [h] <;> simp <;> omega
  | cons c cs ih =>
      rw [scan_cons]
      show (if (step d cs.head? mode s c).2.full (some n) = true
          then (step d cs.head? mode s c).2.records
          else scan d (some n) (step d cs.head? mode s c).1 (step d cs.head? mode s c).2 cs) = _
      have hadds := step_adds d cs.head? mode s c
      generalize step d cs.head? mode s c = x at hadds ⊢
      obtain ⟨mode', s'⟩ := x
      dsimp only at hadds ⊢
      have hlen : s'.done.length ≤ s.done.length + 1 := by
        generalize s'.done = done at hadds
        cases hadds with
        | nothing => exact Nat.le_succ _
        | record => exact Nat.le_refl _
      by_cases hfull : n ≤ s'.done.length
      · -- it stops here, and what the other one adds from here on is not asked for
        obtain ⟨more, hscan, _⟩ := scan_none d mode' s' cs
        have hn : s'.done.reverse.length = n := by
          rw [List.length_reverse]
          omega
        rw [if_pos (by simpa [Scan.full] using hfull), hscan, List.take_left' hn]
        rfl
      · rw [if_neg (by simpa [Scan.full] using hfull)]
        exact ih mode' (by omega)

/-! ## The records of a text -/

theorem records_take (cs : List Char) (d : Char) (n : Nat) :
    records cs d (some n) = (records cs d none).take n := by
  cases n with
  | zero => rfl
  | succ n => exact scan_some .bare (Nat.zero_lt_succ n) cs

theorem ne_nil_of_mem_records {cs : List Char} {limit : Option Nat} {r : Record}
    (hr : r ∈ records cs d limit) : r ≠ [] := by
  have hall : ∀ r ∈ records cs d none, r ≠ [] := by
    obtain ⟨more, hscan, hmore⟩ := scan_none d .bare {} cs
    intro r hr
    have hr : r ∈ scan d none .bare {} cs := hr
    rw [hscan] at hr
    exact hmore r hr
  cases limit with
  | none => exact hall r hr
  | some n =>
      rw [records_take] at hr
      exact hall r (List.mem_of_mem_take hr)

/-- **A preview is the beginning of the whole.** Of any text and with any delimiter, so many
records are the first so many of all records, and every record has a field. -/
theorem records_limited (cs : List Char) (d : Char) :
    (∀ n, records cs d (some n) = (records cs d none).take n)
      ∧ ∀ limit, ∀ r ∈ records cs d limit, r ≠ [] :=
  ⟨records_take cs d, fun _ _ hr => ne_nil_of_mem_records hr⟩

end Intake.Delimited
