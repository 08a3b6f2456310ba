import Intake.Proofs.Previews
import Intake.Proofs.Texts

/-!
# The lines of a normalized table

The output for a table is its records one behind the other, each with a line feed at its end. That
is one line a record as long as no field holds a line feed itself. A field in quotes may: what it
holds is written as it is, so its record takes one more line for each of its line feeds, and a
preview of some records can have more lines than that. `Normalized` says exactly how many and
which, for every text; `broken_field_output` is the smallest table at which records and lines part.
-/

namespace Intake.Delimited

/-- The fields of a record behind each other. -/
def joined (r : Record) : List Char :=
  (";".intercalate r).toList

/-- How many line feeds the fields of some records hold. -/
def breaks (rs : List Record) : Nat :=
  (rs.flatMap fun r => r.flatMap String.toList).count '\n'

/-- Holds of an output that has a line for each record, and what is in its fields on it. Behind the
last line feed is nothing more. -/
def OnePerRecord (rs : List Record) (out : String) : Prop :=
  out.toList.splitOn '\n' = rs.map joined ++ [[]]

/-- Holds of records whose fields stand on one line each. -/
def Unbroken (rs : List Record) : Prop :=
  ∀ r ∈ rs, ∀ f ∈ r, '\n' ∉ f.toList

/-! ## Lines and line feeds -/

/-- There is one piece more than there are separators. -/
theorem length_splitOn (sep : Char) (cs : List Char) :
    (cs.splitOn sep).length = cs.count sep + 1 := by
  induction cs with
  | nil => rfl
  | cons c cs ih =>
      rw [List.splitOn_cons_eq_if_modifyHead]
      by_cases hc : c = sep
      · subst hc
        rw [if_pos (beq_self_eq_true c), List.length_cons, ih, List.count_cons_self]
      · rw [if_neg (by simpa using hc), List.length_modifyHead, ih, List.count_cons_of_ne hc]

/-- Between fields no line feed is written. -/
theorem count_joined (r : Record) : (joined r).count '\n' = (r.flatMap String.toList).count '\n' := by
  unfold joined
  rw [String.toList_intercalate]
  induction r with
  | nil => rfl
  | cons f r ih =>
      cases r with
      | nil => simp
      | cons g r =>
          have hsep : ";".toList.count '\n' = 0 := by decide
          have hcons : (f :: g :: r).flatMap String.toList
              = f.toList ++ (g :: r).flatMap String.toList := List.flatMap_cons
          rw [List.map_cons, List.map_cons, List.intercalate_cons_cons, ← List.map_cons, hcons,
            List.count_append, List.count_append, List.count_append, hsep, Nat.add_zero, ih]

theorem toList_render (rs : List Record) :
    (render rs).toList = rs.flatMap fun r => joined r ++ ['\n'] := by
  unfold render
  rw [String.toList_join, List.flatMap_map]
  refine congrArg (rs.flatMap ·) (funext fun r => ?_)
  unfold line joined
  rw [String.toList_append]
  rfl

/-- **The lines of the output are those of its records.** -/
theorem splitOn_render (rs : List Record) :
    (render rs).toList.splitOn '\n' = (rs.flatMap fun r => (joined r).splitOn '\n') ++ [[]] := by
  rw [toList_render]
  induction rs with
  | nil => rfl
  | cons r rs ih =>
      rw [List.flatMap_cons, List.append_assoc, List.singleton_append,
        List.splitOn_append_cons_self, ih, List.flatMap_cons, List.append_assoc]

theorem count_render (rs : List Record) :
    (render rs).toList.count '\n' = rs.length + breaks rs := by
  rw [toList_render]
  unfold breaks
  induction rs with
  | nil => rfl
  | cons r rs ih =>
      rw [List.flatMap_cons, List.count_append, List.count_append, ih, count_joined,
        List.flatMap_cons, List.count_append, List.length_cons, List.count_singleton_self]
      omega

theorem breaks_eq_zero {rs : List Record} : breaks rs = 0 ↔ Unbroken rs := by
  unfold breaks Unbroken
  rw [List.count_eq_zero]
  simp only [List.mem_flatMap, not_exists, not_and]

/-- **There is one line a record exactly where no field holds a line feed.** -/
theorem onePerRecord_iff (rs : List Record) : OnePerRecord rs (render rs) ↔ Unbroken rs := by
  refine ⟨fun h => ?_, fun h => ?_⟩
  · -- there are no more lines than records, and every line feed makes one
    have hlen := congrArg List.length h
    rw [length_splitOn, count_render, List.length_append, List.length_map,
      List.length_singleton] at hlen
    exact breaks_eq_zero.mp (by omega)
  · have hline : ∀ r ∈ rs, (joined r).splitOn '\n' = [joined r] := by
      intro r hr
      refine List.splitOn_eq_singleton (List.count_eq_zero.mp ?_)
      rw [count_joined, List.count_eq_zero]
      simp only [List.mem_flatMap, not_exists, not_and]
      exact h r hr
    unfold OnePerRecord
    rw [splitOn_render, ← List.flatMap_pure_eq_map]
    exact congrArg (· ++ [[]]) (List.flatMap_congr hline)

/-! ## A text without quotes -/

/-- No field that a scan has read, or is reading, holds a line feed. -/
structure Scan.Unbroken (s : Scan) : Prop where
  done : Delimited.Unbroken s.done
  fields : ∀ f ∈ s.fields, '\n' ∉ f.toList
  field : '\n' ∉ s.field

namespace Scan.Unbroken

variable {s : Scan}

theorem text (h : s.Unbroken) : '\n' ∉ s.text.toList := by
  unfold Scan.text
  rw [String.toList_ofList, List.mem_reverse]
  exact h.field

theorem endField (h : s.Unbroken) : s.endField.Unbroken where
  done := h.done
  fields := by
    intro f hf
    rcases List.mem_cons.mp hf with rfl | hf
    · exact h.text
    · exact h.fields f hf
  field := List.not_mem_nil

theorem endRecord (h : s.Unbroken) : s.endRecord.Unbroken where
  done := by
    intro r hr
    rcases List.mem_cons.mp hr with rfl | hr
    · exact fun f hf => h.endField.fields f (List.mem_reverse.mp hf)
    · exact h.done r hr
  fields := List.forall_mem_nil _
  field := List.not_mem_nil

theorem push (h : s.Unbroken) {c : Char} (hc : c ≠ '\n') : (s.push c).Unbroken where
  done := h.done
  fields := h.fields
  field := fun hm => (List.mem_cons.mp hm).elim (fun heq => hc heq.symm) h.field

/-- Outside quotes a line feed ends the line, whatever the delimiter. -/
theorem bareStep (h : s.Unbroken) {d c : Char} (hc : c ≠ '"') (next : Option Char) :
    (bareStep d next s c).1 = .bare ∧ (bareStep d next s c).2.Unbroken := by
  unfold Delimited.bareStep
  rw [if_neg (by simp [hc])]
  split
  · exact ⟨rfl, h⟩
  · split
    · refine ⟨rfl, ?_⟩
      dsimp only
      split
      · exact h
      · exact h.endRecord
    · rename_i hend
      split
      · exact ⟨rfl, h.endField⟩
      · exact ⟨rfl, h.push fun heq => hend (by simp [heq])⟩

theorem finish (h : s.Unbroken) : Delimited.Unbroken s.finish := by
  have hrecords : ∀ t : Scan, t.Unbroken → Delimited.Unbroken t.records :=
    fun t ht r hr => ht.done r (List.mem_reverse.mp hr)
  unfold Scan.finish
  split
  · exact hrecords s h
  · exact hrecords _ h.endRecord

theorem scan (h : s.Unbroken) (d : Char) {cs : List Char} (hcs : '"' ∉ cs) :
    Delimited.Unbroken (scan d none .bare s cs) := by
  induction cs generalizing s with
  | nil => exact h.finish
  | cons c cs ih =>
      have hc : c ≠ '"' := fun heq => hcs (heq ▸ List.mem_cons_self)
      obtain ⟨hmode, hstep⟩ := h.bareStep hc cs.head? (d := d)
      rw [scan_cons]
      show Delimited.Unbroken (Delimited.scan d none (Delimited.bareStep d cs.head? s c).1 _ cs)
      rw [hmode]
      exact ih hstep fun hm => hcs (List.mem_cons_of_mem _ hm)

end Scan.Unbroken

/-- Without quotes no field goes over the end of a line. -/
theorem unbroken_records {cs : List Char} (hcs : '"' ∉ cs) (d : Char) (limit : Option Nat) :
    Unbroken (records cs d limit) := by
  have hstart : Scan.Unbroken {} :=
    ⟨List.forall_mem_nil _, List.forall_mem_nil _, List.not_mem_nil⟩
  have hall : Unbroken (records cs d none) := hstart.scan d hcs
  cases limit with
  | none => exact hall
  | some n =>
      rw [records_take]
      exact fun r hr => hall r (List.mem_of_mem_take hr)

/-! ## The output of a file -/

theorem extract_encode (limit : Option Nat) (cs : List Char) :
    extract limit (Utf8.encode cs)
      = .ok (render (records (PlainText.unmark cs) (sniff (PlainText.unmark cs)) limit)) := by
  unfold extract
  rw [PlainText.chars?_encode]
  rfl

/-- **What the output of a table is**, line by line. -/
structure Normalized (limit : Option Nat) (rs : List Record) (out : String) : Prop where
  /-- The lines of the records behind each other, and nothing behind the last line feed. -/
  lines : out.toList.splitOn '\n' = (rs.flatMap fun r => (joined r).splitOn '\n') ++ [[]]
  /-- A record has a line, and one more for each line feed in its fields. -/
  count : out.toList.count '\n' = rs.length + breaks rs
  /-- So it is one line a record exactly where no field holds a line feed. -/
  regular : OnePerRecord rs out ↔ Unbroken rs
  /-- A preview has as many records as were asked for at most. -/
  preview : ∀ n, limit = some n → rs.length ≤ n

/-- **The output of every file in UTF-8**, whole or in preview: the lines of its records. Where no
quote is in the text, that is one line a record. -/
theorem extract_lines (cs : List Char) (limit : Option Nat) :
    let text := PlainText.unmark cs
    let rs := records text (sniff text) limit
    ∃ out, extract limit (Utf8.encode cs) = .ok out ∧ Normalized limit rs out
      ∧ ('"' ∉ cs → OnePerRecord rs out) := by
  intro text rs
  refine ⟨render rs, extract_encode limit cs, ?_, fun hcs => ?_⟩
  · refine ⟨splitOn_render rs, count_render rs, onePerRecord_iff rs, ?_⟩
    intro n hn
    show (records text (sniff text) limit).length ≤ n
    rw [hn, records_take]
    exact List.length_take_le n _
  · have htext : '"' ∉ text := by
      intro hm
      refine hcs ?_
      have hm : '"' ∈ PlainText.unmark cs := hm
      unfold PlainText.unmark at hm
      split at hm
      · exact List.mem_of_mem_tail hm
      · exact hm
    exact (onePerRecord_iff rs).mpr (unbroken_records htext _ limit)

/-- A record of two fields, of which the first holds a line feed, has two lines, also in a preview
of one record. -/
theorem broken_field_output :
    let cs := "\"a\nb\",c\n".toList
    let rs := records cs (sniff cs) (some 1)
    rs = [["a\nb", "c"]] ∧ extract (some 1) (Utf8.encode cs) = .ok "a\nb;c\n"
      ∧ extract none (Utf8.encode cs) = .ok "a\nb;c\n"
      ∧ "a\nb;c\n".toList.count '\n' = 2 ∧ ¬ OnePerRecord rs "a\nb;c\n" := by
  intro cs rs
  have hone : rs = [["a\nb", "c"]] := by decide
  have hall : records cs (sniff cs) none = [["a\nb", "c"]] := by decide
  have hunmark : PlainText.unmark cs = cs := by decide
  refine ⟨hone, ?_, ?_, by decide, ?_⟩
  · rw [extract_encode, hunmark]
    exact congrArg (Except.ok ∘ render) hone
  · rw [extract_encode, hunmark]
    exact congrArg (Except.ok ∘ render) hall
  · rw [hone]
    intro h
    exact absurd (congrArg List.length h) (by decide)

end Intake.Delimited
