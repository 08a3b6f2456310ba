import Intake.Delimited

/-!
# Renderings of a table

The same table can be written in many ways. A field stands bare or in quotes, a line ends with
a line feed, a carriage return or both, and empty lines stand between the records. `Rendering`
says which texts are the table all the same, and `records_of_rendering` that every one of them
is read back as the table that it is.

The scan is followed over a text piece by piece, with what comes after the piece left open. A
quote inside quotes is understood only with the character after it, and a carriage return only
with a line feed after it. So what is said of a quoted field asks that a field ends behind it,
and a carriage return may be read with the line that follows: it makes no difference, because
an empty line does not.
-/

namespace Intake.Delimited

/-! ## How a table is written -/

/-- A text with its quotes doubled. -/
def doubled (cs : List Char) : List Char :=
  cs.flatMap fun c => if c = '"' then ['"', '"'] else [c]

/-- The ways to write a field. -/
inductive FieldText (d : Char) (f : String) : List Char → Prop
  /-- As it is, without delimiters and line ends in it, and no quote in front. -/
  | bare : (∀ c ∈ f.toList, c ≠ d ∧ c ≠ '\n' ∧ c ≠ '\r') → f.toList.head? ≠ some '"' →
      FieldText d f f.toList
  /-- Anything in quotes, with the quotes in it doubled. -/
  | quoted : FieldText d f ('"' :: doubled f.toList ++ ['"'])

/-- The ways to write some fields, at least one, with delimiters between them. -/
inductive RowText (d : Char) : Record → List Char → Prop
  | last {f : String} {cs : List Char} : FieldText d f cs → RowText d [f] cs
  | cons {f : String} {fs : Record} {cs ds : List Char} : FieldText d f cs → RowText d fs ds →
      RowText d (f :: fs) (cs ++ d :: ds)

/-- The ways to write a record. An empty line is none, so a record that is one empty field is
written in quotes. -/
structure RecordText (d : Char) (r : Record) (cs : List Char) : Prop where
  row : RowText d r cs
  visible : r = [""] → cs = ['"', '"']

/-- What a line can end with. -/
def lineEnds : List (List Char) :=
  [['\n'], ['\r', '\n'], ['\r']]

/-- **The ways to write a table.** -/
inductive Rendering (d : Char) : List Record → List Char → Prop
  | nil : Rendering d [] []
  | emptyLine {rs : List Record} {e cs : List Char} : e ∈ lineEnds → Rendering d rs cs →
      Rendering d rs (e ++ cs)
  | record {r : Record} {rs : List Record} {row e cs : List Char} : RecordText d r row →
      e ∈ lineEnds → Rendering d rs cs → Rendering d (r :: rs) (row ++ (e ++ cs))
  /-- The last record may go without a line end. -/
  | unended {r : Record} {row : List Char} : RecordText d r row → Rendering d [r] row

/-! ## Single characters -/

variable {d : Char} {s : Scan}

/-- Where no limit is set, the scan goes on. -/
theorem scan_cons (d : Char) (mode : Mode) (s : Scan) (c : Char) (cs : List Char) :
    scan d none mode s (c :: cs)
      = scan d none (step d cs.head? mode s c).1 (step d cs.head? mode s c).2 cs := rfl

/-- Most characters stand for themselves. A quote does, unless it opens the field. -/
theorem bareStep_plain {next : Option Char} {c : Char} (hc : c ≠ d ∧ c ≠ '\n' ∧ c ≠ '\r')
    (hq : s.fresh = true → c ≠ '"') : bareStep d next s c = (.bare, s.push c) := by
  obtain ⟨hd, hn, hr⟩ := hc
  have hopen : ¬ ((c = '"' && s.fresh) = true) := by
    intro h
    rw [Bool.and_eq_true, decide_eq_true_eq] at h
    exact hq h.2 h.1
  unfold bareStep
  rw [if_neg hopen, if_neg (by simp [hr]), if_neg (by simp [hn, hr]), if_neg hd]

theorem bareStep_delimiter {next : Option Char} (hq : d ≠ '"') (hn : d ≠ '\n') (hr : d ≠ '\r') :
    bareStep d next s d = (.bare, s.endField) := by
  unfold bareStep
  rw [if_neg (by simp [hq]), if_neg (by simp [hr]), if_neg (by simp [hn, hr]), if_pos rfl]

/-- The scan after the end of a line. -/
def Scan.endLine (s : Scan) : Scan :=
  if s.atLineStart then s else s.endRecord

/-- An empty line changes nothing. -/
@[simp] theorem Scan.endLine_endLine (s : Scan) : s.endLine.endLine = s.endLine := by
  unfold Scan.endLine
  by_cases hs : s.atLineStart = true
  · rw [if_pos hs, if_pos hs]
  · rw [if_neg hs]
    rfl

theorem scan_lineFeed (d : Char) (s : Scan) (cs : List Char) :
    scan d none .bare s ('\n' :: cs) = scan d none .bare s.endLine cs := by
  rw [scan_cons]
  rfl

/-- **A line end ends the line, whichever it is.** A carriage return alone may stand before a
line feed that is the next line: then that line is ended, and was empty. -/
theorem scan_lineEnd (d : Char) (s : Scan) {e : List Char} (he : e ∈ lineEnds) (cs : List Char) :
    scan d none .bare s (e ++ cs) = scan d none .bare s.endLine cs := by
  have hfeed : ∀ rest, scan d none .bare s ('\r' :: '\n' :: rest)
      = scan d none .bare s ('\n' :: rest) := by
    intro rest
    rw [scan_cons]
    rfl
  simp only [lineEnds, List.mem_cons, List.not_mem_nil, or_false] at he
  rcases he with rfl | rfl | rfl
  · exact scan_lineFeed d s cs
  · exact (hfeed cs).trans (scan_lineFeed d s cs)
  · by_cases hnext : cs.head? = some '\n'
    · obtain ⟨rest, rfl⟩ := List.head?_eq_some_iff.mp hnext
      rw [List.singleton_append, hfeed, scan_lineFeed, scan_lineFeed, Scan.endLine_endLine]
    · have hret : bareStep d cs.head? s '\r' = (.bare, s.endLine) := by
        unfold bareStep
        rw [if_neg (by simp), if_neg (by simpa using hnext), if_pos (by simp)]
        rfl
      rw [List.singleton_append, scan_cons]
      unfold step
      rw [hret]

/-! ## Fields -/

/-- Holds of what can stand behind a field. -/
def EndsField (d : Char) (rest : List Char) : Prop :=
  ∀ c, rest.head? = some c → endsField d c = true

theorem endsField_nil (d : Char) : EndsField d [] := fun c hc => absurd hc (by simp)

theorem endsField_delimiter (d : Char) (cs : List Char) : EndsField d (d :: cs) := by
  intro c hc
  cases hc
  simp [endsField]

theorem endsField_lineEnd (d : Char) {e : List Char} (he : e ∈ lineEnds) (cs : List Char) :
    EndsField d (e ++ cs) := by
  intro c hc
  simp only [lineEnds, List.mem_cons, List.not_mem_nil, or_false] at he
  rcases he with rfl | rfl | rfl <;> cases hc <;> simp [endsField]

/-- The scan after some characters of a field. -/
def Scan.reading (s : Scan) (f : List Char) (fresh : Bool) : Scan :=
  { s with field := f.reverse ++ s.field, fresh }

theorem scan_bare {f : List Char} (hf : ∀ c ∈ f, c ≠ d ∧ c ≠ '\n' ∧ c ≠ '\r')
    (hq : s.fresh = true → f.head? ≠ some '"') (rest : List Char) :
    scan d none .bare s (f ++ rest)
      = scan d none .bare (s.reading f (s.fresh && f.isEmpty)) rest := by
  induction f generalizing s with
  | nil => simp [Scan.reading]
  | cons c f ih =>
      have hstep : step d (f ++ rest).head? .bare s c = (.bare, s.push c) :=
        bareStep_plain (hf c List.mem_cons_self) fun hs => by simpa using hq hs
      rw [List.cons_append, scan_cons, hstep]
      dsimp only
      -- once a character was read, a quote opens nothing
      rw [ih (fun x hx => hf x (List.mem_cons_of_mem _ hx)) (fun hs =>
        absurd hs (by simp [Scan.push]))]
      simp [Scan.reading, Scan.push]

/-- Inside quotes a doubled quote is one, and anything else stands for itself. -/
theorem scan_quoted (f rest : List Char) (hs : s.fresh = false) :
    scan d none .quoted s (doubled f ++ '"' :: rest)
      = scan d none .closing (s.reading f false) rest := by
  induction f generalizing s with
  | nil =>
      have hself : s.reading [] false = s := by
        rw [← hs]
        rfl
      rw [hself]
      exact scan_cons d .quoted s '"' rest
  | cons c f ih =>
      have hread : (s.push c).reading f false = s.reading (c :: f) false := by
        simp [Scan.reading, Scan.push]
      rw [← hread, ← ih rfl]
      by_cases hc : c = '"'
      · -- the first quote seems to close the field, and the second opens it again
        subst hc
        exact (scan_cons d .quoted s '"' _).trans (scan_cons d .closing s '"' _)
      · have htext : doubled (c :: f) = c :: doubled f := by
          simp [doubled, hc]
        have hstep : ∀ next, step d next .quoted s c = (.quoted, s.push c) := by
          intro next
          simp only [step, if_neg hc]
        rw [htext, List.cons_append, scan_cons, hstep]

/-- Behind a closing quote that a field end follows, the scan is outside quotes. -/
theorem scan_closing (hq : d ≠ '"') {rest : List Char} (hrest : EndsField d rest) :
    scan d none .closing s rest = scan d none .bare s rest := by
  cases rest with
  | nil => rfl
  | cons c rest =>
      have hend := hrest c rfl
      have hc : c ≠ '"' := by
        intro hc
        subst hc
        simp [endsField, Ne.symm hq] at hend
      have hstep : step d rest.head? .closing s c = bareStep d rest.head? s c := by
        simp only [step, if_neg hc, if_pos hend]
      rw [scan_cons, hstep, scan_cons]
      rfl

/-- **A field is read as what it is, however it is written.** That nothing of it was written
can still be seen. -/
theorem scan_field (hq : d ≠ '"') {f : String} {cs rest : List Char} (hf : FieldText d f cs)
    (hempty : s.field = []) (hfresh : s.fresh = true) (hrest : EndsField d rest) :
    scan d none .bare s (cs ++ rest)
      = scan d none .bare { s with field := f.toList.reverse, fresh := cs.isEmpty } rest := by
  cases hf with
  | bare hplain hhead =>
      rw [scan_bare hplain (fun _ => hhead), hfresh]
      simp [Scan.reading, hempty]
  | quoted =>
      have hopen : step d (doubled f.toList ++ ['"'] ++ rest).head? .bare s '"'
          = (.quoted, { s with fresh := false }) := by
        simp [step, bareStep, hfresh]
      rw [List.cons_append, List.cons_append, scan_cons, hopen, List.append_assoc]
      dsimp only
      rw [List.singleton_append, scan_quoted _ _ rfl, scan_closing hq hrest]
      simp [Scan.reading, hempty]

/-! ## Records -/

/-- The fields that a scan has of the current record. -/
def Scan.record (s : Scan) : Record :=
  (s.text :: s.fields).reverse

theorem Scan.endRecord_eq (s : Scan) : s.endRecord = { done := s.record :: s.done } := rfl

/-- The fields of a row are read one after the other. Nothing is left to be seen of the row only
if it is one empty field of which nothing was written. -/
theorem scan_row (hq : d ≠ '"') (hn : d ≠ '\n') (hr : d ≠ '\r') {r : Record}
    {cs rest : List Char} (h : RowText d r cs) (done : List Record) (fields : List String)
    (hrest : EndsField d rest) :
    ∃ s, scan d none .bare { done, fields } (cs ++ rest) = scan d none .bare s rest
      ∧ s.done = done ∧ s.record = fields.reverse ++ r
      ∧ (s.atLineStart = true → r = [""] ∧ cs = []) := by
  induction h generalizing fields with
  | @last f cs hf =>
      refine ⟨_, scan_field hq hf rfl rfl hrest, rfl, ?_, ?_⟩
      · simp [Scan.record, Scan.text]
      · intro hstart
        simp only [Scan.atLineStart, Bool.and_eq_true, List.isEmpty_iff,
          List.reverse_eq_nil_iff] at hstart
        obtain ⟨⟨_, htext⟩, hcs⟩ := hstart
        exact ⟨by rw [← String.ofList_toList (s := f), htext], hcs⟩
  | @cons f fs cs ds hf _ ih =>
      obtain ⟨s, hscan, hdone, hrecord, hstart⟩ := ih (f :: fields)
      have hfield := scan_field (s := { done, fields }) hq hf rfl rfl
        (endsField_delimiter d (ds ++ rest))
      refine ⟨s, ?_, hdone, ?_, ?_⟩
      · have hstep : ∀ (t : Scan) next, step d next .bare t d = (.bare, t.endField) :=
          fun t next => bareStep_delimiter hq hn hr
        rw [List.append_assoc, List.cons_append, hfield, scan_cons, hstep, ← hscan]
        simp [Scan.endField, Scan.text]
      · rw [hrecord]
        simp
      · intro h
        -- the field before the delimiter is to be seen
        have hnil : s.fields = [] := by
          simp only [Scan.atLineStart, Bool.and_eq_true, List.isEmpty_iff] at h
          exact h.1.1
        rw [(hstart h).1, Scan.record, hnil] at hrecord
        have hlen := congrArg List.length hrecord
        simp only [List.length_reverse, List.length_append, List.length_cons,
          List.length_nil] at hlen
        omega

/-- **A record is read as what it is**, and something is to be seen of it. -/
theorem scan_record (hq : d ≠ '"') (hn : d ≠ '\n') (hr : d ≠ '\r') {r : Record}
    {cs rest : List Char} (h : RecordText d r cs) (done : List Record) (hrest : EndsField d rest) :
    ∃ s, scan d none .bare { done } (cs ++ rest) = scan d none .bare s rest
      ∧ s.atLineStart = false ∧ s.endRecord = { done := r :: done } := by
  obtain ⟨s, hscan, hdone, hrecord, hstart⟩ := scan_row hq hn hr h.row done [] hrest
  refine ⟨s, hscan, ?_, ?_⟩
  · cases hs : s.atLineStart with
    | false => rfl
    | true =>
        obtain ⟨hone, hcs⟩ := hstart hs
        rw [h.visible hone] at hcs
        exact absurd hcs (by simp)
  · rw [Scan.endRecord_eq, hrecord, hdone]
    rfl

/-! ## Tables -/

/-- With some records finished, the others are read behind them. -/
theorem scan_rendering (hq : d ≠ '"') (hn : d ≠ '\n') (hr : d ≠ '\r') {rs : List Record}
    {cs : List Char} (h : Rendering d rs cs) (done : List Record) :
    scan d none .bare { done } cs = done.reverse ++ rs := by
  induction h generalizing done with
  | nil => exact (List.append_nil _).symm
  | emptyLine he _ ih =>
      rw [scan_lineEnd d _ he]
      exact ih done
  | @record r rs row e cs hrow he _ ih =>
      obtain ⟨s, hscan, hseen, hend⟩ :=
        scan_record hq hn hr hrow done (endsField_lineEnd d he cs)
      have hline : s.endLine = { done := r :: done } := by
        unfold Scan.endLine
        rw [hseen, if_neg (by simp), hend]
      rw [hscan, scan_lineEnd d _ he, hline, ih]
      simp
  | @unended r row hrow =>
      obtain ⟨s, hscan, hseen, hend⟩ := scan_record hq hn hr hrow done (endsField_nil d)
      rw [List.append_nil] at hscan
      rw [hscan]
      unfold scan Scan.finish
      rw [hseen, if_neg (by simp), hend]
      simp [Scan.records]

/-- **Reading undoes writing.** Whatever delimiter the table is written with, whichever fields
stand in quotes, and whatever the lines end with: the records of the text are the table. -/
theorem records_of_rendering (hq : d ≠ '"') (hn : d ≠ '\n') (hr : d ≠ '\r') {rs : List Record}
    {cs : List Char} (h : Rendering d rs cs) : records cs d none = rs :=
  scan_rendering hq hn hr h []

/-- Three records with line ends of all kinds. An empty line stands in front and another behind
the first record, whose last field is empty; the second is one empty field; the third has a
quote inside a bare field, a field that is a quote, and no line end. -/
theorem records_of_rendering_mixed :
    let rs : List Record := [["a", "b;\r\n\"c\"", ""], [""], ["x\"y", "\""]]
    let cs := "\na;\"b;\r\n\"\"c\"\"\";\r\r\n\"\"\nx\"y;\"\"\"\"".toList
    ';' ≠ '"' ∧ ';' ≠ '\n' ∧ ';' ≠ '\r' ∧ Rendering ';' rs cs ∧ records cs ';' none = rs := by
  intro rs cs
  have hq : ';' ≠ '"' := by decide
  have hn : ';' ≠ '\n' := by decide
  have hr : ';' ≠ '\r' := by decide
  have hfirst : RecordText ';' ["a", "b;\r\n\"c\"", ""] "a;\"b;\r\n\"\"c\"\"\";".toList := by
    refine ⟨.cons (.bare ?_ ?_) (.cons .quoted (.last (.bare ?_ ?_))), ?_⟩
    all_goals simp
  have hsecond : RecordText ';' [""] "\"\"".toList := ⟨.last .quoted, fun _ => rfl⟩
  have hthird : RecordText ';' ["x\"y", "\""] "x\"y;\"\"\"\"".toList :=
    ⟨.cons (.bare (by simp) (by simp)) (.last .quoted), by simp⟩
  have hrest : Rendering ';' [[""], ["x\"y", "\""]]
      (['\r', '\n'] ++ ("\"\"".toList ++ (['\n'] ++ _))) :=
    .emptyLine (by decide) (.record hsecond (by decide) (.unended hthird))
  have h : Rendering ';' rs (['\n'] ++ (_ ++ (['\r'] ++ _))) :=
    .emptyLine (by decide) (.record hfirst (by decide) hrest)
  exact ⟨hq, hn, hr, h, records_of_rendering hq hn hr h⟩

end Intake.Delimited
