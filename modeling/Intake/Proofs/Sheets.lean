import Intake.Proofs.Normalized
import Intake.Proofs.Sniffing

/-!
# The delimiter makes no difference

A sheet is a table with all that its writer decided but the delimiter: which fields stand in
quotes, and how each line ends. `Sheet.text` writes it with a delimiter. A field that could be
mistaken stands in quotes, so in each line that delimiter is outside quotes once less than there
are fields, and no other candidate is outside quotes at all.

Whether a quote is open is known to both who read the text, and each goes by rules of its own:
the one that counts turns at every quote, and the one that cuts looks at the character behind. On
a sheet they agree, and `sheet_extract` says what comes of it.
-/

namespace Intake.Delimited

/-- A field and whether it is written in quotes. -/
structure Cell where
  field : String
  quoted : Bool
  deriving DecidableEq, Repr

namespace Cell

/-- How the field is written. -/
def text (c : Cell) : List Char :=
  if c.quoted then '"' :: doubled c.field.toList ++ ['"'] else c.field.toList

/-- Holds of a cell that can stand on a line between any delimiters. -/
structure Plain (c : Cell) : Prop where
  inline : ∀ x ∈ c.field.toList, x ≠ '\n' ∧ x ≠ '\r'
  bare : c.quoted = false → ∀ x ∈ c.field.toList, x ≠ '"' ∧ x ∉ candidates

instance (c : Cell) : Decidable c.Plain :=
  -- character by character of the field, not of all that there are
  haveI := List.decidableBAll (fun x => x ≠ '\n' ∧ x ≠ '\r') c.field.toList
  haveI := List.decidableBAll (fun x => x ≠ '"' ∧ x ∉ candidates) c.field.toList
  decidable_of_iff ((∀ x ∈ c.field.toList, x ≠ '\n' ∧ x ≠ '\r')
      ∧ (c.quoted = false → ∀ x ∈ c.field.toList, x ≠ '"' ∧ x ∉ candidates))
    ⟨fun h => ⟨h.1, h.2⟩, fun h => ⟨h.inline, h.bare⟩⟩

/-- Cells behind each other, with the delimiter between them. -/
def line (d : Char) (cells : List Cell) : List Char :=
  [d].intercalate (cells.map text)

theorem line_singleton (d : Char) (c : Cell) : line d [c] = c.text :=
  List.intercalate_singleton

theorem line_cons (d : Char) (c c' : Cell) (cells : List Cell) :
    line d (c :: c' :: cells) = c.text ++ d :: line d (c' :: cells) := by
  unfold line
  rw [List.map_cons, List.map_cons, List.intercalate_cons_cons, List.append_assoc]
  rfl

end Cell

/-- A line of a table, and whether a carriage return stands before its line feed. -/
structure Row where
  cells : List Cell
  returned : Bool
  deriving DecidableEq, Repr

namespace Row

/-- The line, without its end. -/
def text (d : Char) (r : Row) : List Char :=
  Cell.line d r.cells

/-- The end of the line. -/
def ending (r : Row) : List Char :=
  if r.returned then ['\r', '\n'] else ['\n']

/-- The fields. -/
def record (r : Row) : Record :=
  r.cells.map Cell.field

end Row

/-- **A table as it is written, but for the delimiter.** -/
structure Sheet where
  rows : List Row
  /-- The number of fields in each line. -/
  width : Nat
  two_le : 2 ≤ width
  filled : rows ≠ []
  even : ∀ r ∈ rows, r.cells.length = width
  plain : ∀ r ∈ rows, ∀ c ∈ r.cells, c.Plain

namespace Sheet

/-- The table, written with a delimiter. -/
def text (t : Sheet) (d : Char) : List Char :=
  t.rows.flatMap fun r => r.text d ++ r.ending

/-- What it says. -/
def records (t : Sheet) : List Record :=
  t.rows.map Row.record

/-- Holds where no line is blank, which a delimiter can be, and the text does not begin with a
byte-order mark. -/
structure Legible (t : Sheet) (d : Char) : Prop where
  visible : ∀ r ∈ t.rows, (r.text d).all Text.isBlank = false
  unmarked : (t.text d).head? ≠ some PlainText.mark

end Sheet

/-! ## Cutting -/

theorem candidates_ne {d : Char} (hd : d ∈ candidates) : d ≠ '"' ∧ d ≠ '\n' ∧ d ≠ '\r' := by
  simp only [candidates, List.mem_cons, List.not_mem_nil, or_false] at hd
  rcases hd with rfl | rfl | rfl | rfl | rfl <;> decide

variable {c : Cell} {r : Row} {d x : Char}

theorem Cell.Plain.fieldText (h : c.Plain) (hd : d ∈ candidates) : FieldText d c.field c.text := by
  unfold Cell.text
  by_cases hq : c.quoted = true
  · rw [if_pos hq]
    exact .quoted
  · rw [if_neg hq]
    have hbare := h.bare (by simpa using hq)
    refine .bare (fun x hx => ⟨?_, h.inline x hx⟩) ?_
    · rintro rfl
      exact (hbare x hx).2 hd
    · intro hhead
      exact (hbare _ (List.mem_of_mem_head? hhead)).1 rfl

theorem Row.rowText (hd : d ∈ candidates) (hsome : r.cells ≠ [])
    (hplain : ∀ c ∈ r.cells, c.Plain) : RowText d r.record (r.text d) := by
  unfold Row.record Row.text
  generalize r.cells = cells at hsome hplain
  induction cells with
  | nil => exact absurd rfl hsome
  | cons c cells ih =>
      obtain ⟨hc, hrest⟩ := List.forall_mem_cons.mp hplain
      cases cells with
      | nil =>
          rw [Cell.line_singleton]
          exact .last (hc.fieldText hd)
      | cons c' cells =>
          rw [Cell.line_cons]
          exact .cons (hc.fieldText hd) (ih (by simp) hrest)

namespace Sheet

theorem row_recordText (t : Sheet) (hd : d ∈ candidates) (hr : r ∈ t.rows) :
    RecordText d r.record (r.text d) := by
  have hwidth := t.even r hr
  have htwo := t.two_le
  refine ⟨r.rowText hd ?_ (t.plain r hr), fun hone => ?_⟩
  · intro hnil
    rw [hnil, List.length_nil] at hwidth
    omega
  · -- one field alone is too few
    have hlen := congrArg List.length hone
    unfold Row.record at hlen
    rw [List.length_map, hwidth, List.length_singleton] at hlen
    omega

/-- **A sheet is a rendering of its table.** -/
theorem rendering (t : Sheet) (hd : d ∈ candidates) : Rendering d t.records (t.text d) := by
  have hrows := fun r hr => t.row_recordText (d := d) hd (r := r) hr
  unfold records text
  generalize t.rows = rows at hrows
  induction rows with
  | nil => exact .nil
  | cons r rows ih =>
      have hend : r.ending ∈ lineEnds := by
        unfold Row.ending
        split <;> simp [lineEnds]
      rw [List.map_cons, List.flatMap_cons, List.append_assoc]
      exact .record (hrows r List.mem_cons_self) hend
        (ih fun r' hr' => hrows r' (List.mem_cons_of_mem _ hr'))

theorem records_text (t : Sheet) (hd : d ∈ candidates) :
    Delimited.records (t.text d) d none = t.records := by
  obtain ⟨hq, hn, hr⟩ := candidates_ne hd
  exact scan_rendering hq hn hr (t.rendering hd) []

end Sheet

/-! ## Lines -/

/-- No line end stands in a row. -/
theorem Cell.Plain.text_inline (h : c.Plain) : ∀ x ∈ c.text, x ≠ '\n' ∧ x ≠ '\r' := by
  have hdoubled : ∀ x ∈ doubled c.field.toList, x ≠ '\n' ∧ x ≠ '\r' := by
    intro x hx
    obtain ⟨y, hy, hxy⟩ := List.mem_flatMap.mp hx
    split at hxy
    · have hxq : x = '"' := by simpa using hxy
      rw [hxq]
      decide
    · rw [List.mem_singleton.mp hxy]
      exact h.inline y hy
  unfold Cell.text
  split
  · intro x hx
    simp only [List.cons_append, List.mem_cons, List.mem_append,
      List.not_mem_nil, or_false] at hx
    rcases hx with rfl | hx | rfl
    · decide
    · exact hdoubled x hx
    · decide
  · exact h.inline

theorem Row.text_inline (hd : d ∈ candidates) (hplain : ∀ c ∈ r.cells, c.Plain) :
    ∀ x ∈ r.text d, x ≠ '\n' ∧ x ≠ '\r' := by
  unfold Row.text
  generalize r.cells = cells at hplain
  induction cells with
  | nil => exact fun x hx => absurd hx List.not_mem_nil
  | cons c cells ih =>
      obtain ⟨hc, hrest⟩ := List.forall_mem_cons.mp hplain
      cases cells with
      | nil =>
          rw [Cell.line_singleton]
          exact hc.text_inline
      | cons c' cells =>
          rw [Cell.line_cons]
          intro x hx
          rcases List.mem_append.mp hx with hx | hx
          · exact hc.text_inline x hx
          · rcases List.mem_cons.mp hx with rfl | hx
            · exact (candidates_ne hd).2
            · exact ih hrest x hx

/-- A piece of a line is read up to what is behind it. -/
theorem linesFrom_append {cs : List Char} (hcs : '\n' ∉ cs) (line rest : List Char)
    (done : List (List Char)) :
    Text.linesFrom line done (cs ++ rest) = Text.linesFrom (cs.reverse ++ line) done rest := by
  induction cs generalizing line with
  | nil => rfl
  | cons c cs ih =>
      have hc : c ≠ '\n' := fun hc => hcs (hc ▸ List.mem_cons_self)
      rw [List.cons_append, Text.linesFrom, ih fun hm => hcs (List.mem_cons_of_mem _ hm)]
      · simp
      · exact hc

/-- **A line ends before its ending.** -/
theorem linesFrom_row {cs : List Char} (hcs : ∀ x ∈ cs, x ≠ '\n' ∧ x ≠ '\r') (r : Row)
    (done : List (List Char)) (rest : List Char) :
    Text.linesFrom [] done (cs ++ r.ending ++ rest) = Text.linesFrom [] (cs :: done) rest := by
  have hfeed : '\n' ∉ cs := fun h => (hcs _ h).1 rfl
  have hkept : Text.dropReturn cs.reverse = cs.reverse := by
    unfold Text.dropReturn
    split
    · rename_i tl htl
      have hmem : '\r' ∈ cs := List.mem_reverse.mp (htl ▸ List.mem_cons_self)
      exact absurd rfl (hcs _ hmem).2
    · rfl
  rw [List.append_assoc, linesFrom_append hfeed, List.append_nil]
  unfold Row.ending
  split
  · show Text.linesFrom [] (cs.reverse.reverse :: done) rest = _
    rw [List.reverse_reverse]
  · show Text.linesFrom [] ((Text.dropReturn cs.reverse).reverse :: done) rest = _
    rw [hkept, List.reverse_reverse]

namespace Sheet

/-- **The lines of a sheet are its rows.** -/
theorem linesOf_text (t : Sheet) (hd : d ∈ candidates) :
    Text.linesOf (t.text d) = t.rows.map (Row.text d) := by
  have hinline : ∀ r ∈ t.rows, ∀ x ∈ r.text d, x ≠ '\n' ∧ x ≠ '\r' :=
    fun r hr => r.text_inline hd (t.plain r hr)
  have hgen : ∀ done, Text.linesFrom [] done (t.text d)
      = done.reverse ++ t.rows.map (Row.text d) := by
    unfold text
    generalize t.rows = rows at hinline
    induction rows with
    | nil => exact fun done => (List.append_nil _).symm
    | cons r rows ih =>
        obtain ⟨hr, hrest⟩ := List.forall_mem_cons.mp hinline
        intro done
        rw [List.flatMap_cons, linesFrom_row hr, ih hrest, List.map_cons, List.reverse_cons,
          List.append_assoc]
        rfl
  exact hgen []

end Sheet

/-! ## Counting -/

/-- No candidate is outside quotes in a cell. -/
theorem Cell.Plain.countFrom (h : c.Plain) (hx : x ∈ candidates) (n : Nat) (rest : List Char) :
    Delimited.countFrom x false n (c.text ++ rest) = Delimited.countFrom x false n rest := by
  unfold Cell.text
  by_cases hq : c.quoted = true
  · rw [if_pos hq]
    exact countFrom_quoted (candidates_ne hx).1 _ _
  · rw [if_neg hq]
    refine countFrom_bare (fun y hy => ?_) rest
    obtain ⟨hquote, hnot⟩ := h.bare (by simpa using hq) y hy
    exact ⟨hquote, fun heq => hnot (heq ▸ hx)⟩

/-- **The delimiter is outside quotes once less than there are fields, and no other is.** -/
theorem Row.count_text (hd : d ∈ candidates) (hx : x ∈ candidates)
    (hplain : ∀ c ∈ r.cells, c.Plain) :
    count x (r.text d) = if x = d then r.cells.length - 1 else 0 := by
  have hgen : ∀ n, countFrom x false n (r.text d)
      = n + if x = d then r.cells.length - 1 else 0 := by
    unfold Row.text
    generalize r.cells = cells at hplain
    induction cells with
    | nil => exact fun n => by simp [Cell.line, countFrom]
    | cons c cells ih =>
        obtain ⟨hc, hrest⟩ := List.forall_mem_cons.mp hplain
        intro n
        cases cells with
        | nil =>
            have hcell := hc.countFrom hx n []
            rw [List.append_nil] at hcell
            rw [Cell.line_singleton, hcell]
            simp [countFrom]
        | cons c' cells =>
            rw [Cell.line_cons, hc.countFrom hx]
            by_cases hxd : x = d
            · subst hxd
              rw [countFrom_self (candidates_ne hx).1, ih hrest, if_pos rfl, if_pos rfl]
              simp only [List.length_cons]
              omega
            · rw [countFrom_other (candidates_ne hd).1 (Ne.symm hxd), ih hrest, if_neg hxd,
                if_neg hxd]
  exact (hgen 0).trans (Nat.zero_add _)

namespace Sheet

theorem sample_text (t : Sheet) (hd : d ∈ candidates) (h : t.Legible d) :
    sample (t.text d) = (t.rows.map (Row.text d)).take sampleSize := by
  unfold sample
  rw [t.linesOf_text hd, List.filter_eq_self.mpr]
  intro l hl
  obtain ⟨r, hr, rfl⟩ := List.mem_map.mp hl
  rw [h.visible r hr]
  rfl

/-- **The delimiter of a sheet is found.** -/
theorem sniff_text (t : Sheet) (hd : d ∈ candidates) (h : t.Legible d) : sniff (t.text d) = d := by
  have hsome : (t.rows.map (Row.text d)).take sampleSize ≠ [] := by
    intro hnil
    rcases List.take_eq_nil_iff.mp hnil with h0 | hmap
    · exact absurd h0 (by decide)
    · exact t.filled (List.map_eq_nil_iff.mp hmap)
  have hcount : ∀ x ∈ candidates, ∀ l ∈ (t.rows.map (Row.text d)).take sampleSize,
      count x l = if x = d then t.width - 1 else 0 := by
    intro x hx l hl
    obtain ⟨r, hr, rfl⟩ := List.mem_map.mp (List.mem_of_mem_take hl)
    rw [r.count_text hd hx (t.plain r hr), t.even r hr]
  have hwidth : t.width - 1 ≠ 0 := by
    have htwo := t.two_le
    omega
  have hstanding := standing?_of_even hsome (hcount d hd)
  rw [if_pos rfl, if_neg hwidth] at hstanding
  unfold sniff
  rw [t.sample_text hd h, foldl_better hstanding]
  · intro x hx hxd
    rw [standing?_of_even hsome (hcount x hx), if_neg hxd, if_pos rfl]
  · exact Or.inr ⟨hd, rfl⟩

/-- **A table comes out the same, whatever delimiter it was written with.** The delimiter is found,
and the output is the fields of each record with a semicolon between them. -/
theorem sheet_extract (t : Sheet) (hd : d ∈ candidates) (h : t.Legible d) :
    sniff (t.text d) = d
      ∧ extract none (Utf8.encode (t.text d)) = .ok (render t.records)
      ∧ ∀ d' ∈ candidates, t.Legible d' →
        extract none (Utf8.encode (t.text d')) = extract none (Utf8.encode (t.text d)) := by
  have hall : ∀ d ∈ candidates, t.Legible d →
      extract none (Utf8.encode (t.text d)) = .ok (render t.records) := by
    intro d hd h
    have hunmark : PlainText.unmark (t.text d) = t.text d := if_neg h.unmarked
    rw [extract_encode, hunmark, t.sniff_text hd h, t.records_text hd]
  refine ⟨t.sniff_text hd h, hall d hd h, fun d' hd' h' => ?_⟩
  rw [hall d' hd' h', hall d hd h]

/-- A sheet with a delimiter and quotes in its fields, with empty and blank ones among them, with
semicolons and with tabs. -/
theorem sheet_extract_tabs :
    let t : Sheet := {
      rows := [
        ⟨[⟨"a;b\tc", true⟩, ⟨"", false⟩, ⟨"say \"hi\"", true⟩], true⟩,
        ⟨[⟨"", true⟩, ⟨"  ", false⟩, ⟨"x", false⟩], false⟩]
      width := 3
      two_le := by decide
      filled := by decide
      even := by decide
      plain := by decide }
    ';' ∈ candidates ∧ '\t' ∈ candidates ∧ t.Legible ';' ∧ t.Legible '\t'
      ∧ t.text '\t' = "\"a;b\tc\"\t\t\"say \"\"hi\"\"\"\r\n\"\"\t  \tx\n".toList
      ∧ sniff (t.text '\t') = '\t'
      ∧ extract none (Utf8.encode (t.text '\t')) = .ok "a;b\tc;;say \"hi\"\n;  ;x\n"
      ∧ extract none (Utf8.encode (t.text ';')) = extract none (Utf8.encode (t.text '\t')) := by
  intro t
  have hs : ';' ∈ candidates := by decide
  have ht : '\t' ∈ candidates := by decide
  have hsemicolons : t.Legible ';' := ⟨by decide, by decide⟩
  have htabs : t.Legible '\t' := ⟨by decide, by decide⟩
  obtain ⟨hsniff, hout, hsame⟩ := sheet_extract t ht htabs
  exact ⟨hs, ht, hsemicolons, htabs, by decide, hsniff, hout, hsame ';' hs hsemicolons⟩

end Sheet
end Intake.Delimited
