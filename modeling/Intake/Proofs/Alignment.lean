import Intake.Proofs.Sheets

/-!
# Where counting and cutting agree

A candidate is judged by how often it stands outside quotes in each line, as if each line began
outside quotes and each quote opened or closed. The scan that cuts the text into records goes by
other rules: a quote inside a bare field stands for itself, so does one in a quoted field that no
field end follows, and a quoted field goes over the end of its line. So a candidate may be judged
by other splits than it makes, and `stray_quote_counts` is a text whose delimiter is not found
because of it.

`aligned` says of a line where that cannot be: both see each delimiter on the same side of the
quotes, and the line ends outside. Then the counts are those of the records (`counts_eq_cuts`). A
line without stray quotes, without a quote left open and without a carriage return in it is such a
line.
-/

namespace Intake.Delimited

/-- The lines that are not empty. -/
def filledLines (cs : List Char) : List (List Char) :=
  (Text.linesOf cs).filter fun l => !l.isEmpty

/-- What a candidate is judged by: its counts in the lines that are looked at. -/
def counts (d : Char) (cs : List Char) : List Nat :=
  (sample cs).map (count d)

/-- How often the records are cut. -/
def cuts (d : Char) (cs : List Char) : List Nat :=
  (records cs d none).map fun r => r.length - 1

/-- Holds of a text that is looked at as a whole: there are not too many lines, and no line has
blanks alone. -/
structure Surveyed (cs : List Char) : Prop where
  few : (filledLines cs).length ≤ sampleSize
  visible : ∀ l ∈ filledLines cs, l.all Text.isBlank = false

/-- Holds of the rest of a line where the scan and the one who counts, who is inside quotes or not,
see the same delimiters outside quotes. A field is `fresh` of which nothing was read. -/
def alignedFrom (d : Char) (mode : Mode) (fresh inside : Bool) : List Char → Bool
  | [] => mode != .quoted
  | c :: r =>
    let (mode', s) := step d none mode { fresh } c
    (c != '\r' || mode == .quoted) && (c != d || (mode == .quoted) == inside)
      && alignedFrom d mode' s.fresh (inside != (c == '"')) r

/-- Holds of a line in which both see the same delimiters. -/
def aligned (d : Char) (line : List Char) : Bool :=
  alignedFrom d .bare true false line

/-- Holds of the rest of a line without stray quotes: a quote opens a field or closes one, and the
others are doubled. -/
def tidyFrom (d : Char) (mode : Mode) (fresh : Bool) : List Char → Bool
  | [] => mode != .quoted
  | c :: r =>
    let (mode', s) := step d none mode { fresh } c
    (c != '\r' || mode == .quoted) && (c != '"' || mode != .bare || fresh)
      && (c == '"' || mode != .closing || endsField d c) && tidyFrom d mode' s.fresh r

/-- Holds of a line without stray quotes. -/
def tidy (d : Char) (line : List Char) : Bool :=
  tidyFrom d .bare true line

variable {d : Char} {mode : Mode} {s : Scan} {c : Char}

/-! ## Single characters -/

/-- **What a character inside a line can do.** -/
inductive Reads (d : Char) (s : Scan) : Mode → Char → Mode × Scan → Prop
  | opens : s.fresh = true → Reads d s .bare '"' (.quoted, { s with fresh := false })
  | keeps {c : Char} : (c = '"' → s.fresh = false) → c ≠ d → Reads d s .bare c (.bare, s.push c)
  | cuts {mode : Mode} : mode ≠ .quoted → Reads d s mode d (.bare, s.endField)
  | hides {c : Char} : c ≠ '"' → Reads d s .quoted c (.quoted, s.push c)
  | closes : Reads d s .quoted '"' (.closing, s)
  | doubles : Reads d s .closing '"' (.quoted, s.push '"')
  /-- The quote before it was a stray one. -/
  | strays {c : Char} : c ≠ '"' → c ≠ d → endsField d c = false →
      Reads d s .closing c (.quoted, (s.push '"').push c)

/-- Inside a line nothing depends on the character behind. -/
theorem bareStep_blind (hr : c ≠ '\r') (next : Option Char) :
    bareStep d next s c = bareStep d none s c := by
  unfold bareStep
  simp [hr]

theorem bareStep_reads (hq : d ≠ '"') (hn : c ≠ '\n') (hr : c ≠ '\r') (next : Option Char) :
    Reads d s .bare c (bareStep d next s c) := by
  by_cases hopen : c = '"' ∧ s.fresh = true
  · obtain ⟨rfl, hfresh⟩ := hopen
    have hstep : bareStep d next s '"' = (.quoted, { s with fresh := false }) := by
      simp [bareStep, hfresh]
    rw [hstep]
    exact .opens hfresh
  · by_cases hd : c = d
    · subst hd
      rw [bareStep_delimiter hq hn hr]
      exact .cuts (by simp)
    · rw [bareStep_plain ⟨hd, hn, hr⟩ fun hf hc => hopen ⟨hc, hf⟩]
      exact .keeps (fun hc => by simpa [hc] using hopen) hd

/-- **Said once for every mode**: what a step does inside a line, whatever comes behind. Only in
quotes may the character be a carriage return. -/
theorem step_reads (hq : d ≠ '"') (hn : c ≠ '\n') (hr : c = '\r' → mode = .quoted) :
    Reads d s mode c (step d none mode s c)
      ∧ ∀ next, step d next mode s c = step d none mode s c := by
  cases mode with
  | bare =>
      have hr : c ≠ '\r' := fun h => absurd (hr h) (by simp)
      exact ⟨bareStep_reads hq hn hr none, fun next => bareStep_blind hr next⟩
  | quoted =>
      refine ⟨?_, fun _ => rfl⟩
      unfold step
      by_cases hc : c = '"'
      · subst hc
        exact .closes
      · simp only [if_neg hc]
        exact .hides hc
  | closing =>
      have hr : c ≠ '\r' := fun h => absurd (hr h) (by simp)
      unfold step
      by_cases hc : c = '"'
      · subst hc
        exact ⟨.doubles, fun _ => rfl⟩
      · by_cases hend : endsField d c = true
        · -- no line end, so it is the delimiter
          have hd : c = d := by simpa [endsField, hn, hr] using hend
          subst hd
          simp only [if_neg hc, if_pos hend]
          refine ⟨?_, fun next => bareStep_blind hr next⟩
          rw [bareStep_delimiter hq hn hr]
          exact .cuts (by simp)
        · have hd : c ≠ d := by
            rintro rfl
            exact hend (by simp [endsField])
          simp only [if_neg hc, if_neg hend]
          exact ⟨.strays hc hd (by simpa using hend), fun _ => trivial⟩

namespace Reads

variable {x : Mode × Scan}

theorem done (h : Reads d s mode c x) : x.2.done = s.done := by
  cases h <;> rfl

/-- A delimiter outside quotes ends a field, and nothing else does. -/
theorem fields (h : Reads d s mode c x) (hq : d ≠ '"') :
    x.2.fields.length = s.fields.length + if c = d ∧ mode ≠ .quoted then 1 else 0 := by
  cases h with
  | cuts hm => rw [if_pos ⟨rfl, hm⟩]; rfl
  | opens _ => rw [if_neg fun h => hq h.1.symm]; rfl
  | keeps _ hd => rw [if_neg fun h => hd h.1]; rfl
  | hides _ => rw [if_neg fun h => h.2 rfl]; rfl
  | closes => rw [if_neg fun h => h.2 rfl]; rfl
  | doubles => rw [if_neg fun h => hq h.1.symm]; rfl
  | strays _ hd _ => rw [if_neg fun h => hd h.1]; rfl

/-- Something of the line was read. -/
theorem begun (h : Reads d s mode c x) (hs : mode ≠ .bare → s.fresh = false) :
    x.2.atLineStart = false ∧ (x.1 ≠ .bare → x.2.fresh = false) := by
  have hread : ∀ t : Scan, t.fresh = false → t.atLineStart = false := by
    intro t ht
    unfold Scan.atLineStart
    rw [ht, Bool.and_false]
  cases h with
  | cuts _ => exact ⟨rfl, fun hm => absurd rfl hm⟩
  | closes => exact ⟨hread _ (hs (by simp)), fun _ => hs (by simp)⟩
  | _ => exact ⟨hread _ rfl, fun _ => rfl⟩

/-- How it goes on depends on no more than whether something was read of the field. -/
theorem alike (h : Reads d s mode c x) (hq : d ≠ '"') {t : Scan} {y : Mode × Scan}
    (h' : Reads d t mode c y) (hf : s.fresh = t.fresh) : x.1 = y.1 ∧ x.2.fresh = y.2.fresh := by
  cases h with
  | opens hs =>
      cases h' with
      | opens _ => exact ⟨rfl, rfl⟩
      | keeps ht _ => rw [hs, ht rfl] at hf; exact absurd hf (by simp)
      | cuts _ => exact absurd rfl hq
  | keeps hs hd =>
      cases h' with
      | opens ht => rw [hs rfl, ht] at hf; exact absurd hf (by simp)
      | keeps _ _ => exact ⟨rfl, rfl⟩
      | cuts _ => exact absurd rfl hd
  | cuts hm =>
      cases h' with
      | opens _ => exact absurd rfl hq
      | keeps _ hd => exact absurd rfl hd
      | cuts _ => exact ⟨rfl, rfl⟩
      | hides _ => exact absurd rfl hm
      | closes => exact absurd rfl hq
      | doubles => exact absurd rfl hq
      | strays _ hd _ => exact absurd rfl hd
  | hides hc =>
      cases h' with
      | cuts hm => exact absurd rfl hm
      | hides _ => exact ⟨rfl, rfl⟩
      | closes => exact absurd rfl hc
  | closes =>
      cases h' with
      | cuts hm => exact absurd rfl hm
      | hides hc => exact absurd rfl hc
      | closes => exact ⟨rfl, hf⟩
  | doubles =>
      cases h' with
      | cuts _ => exact absurd rfl hq
      | doubles => exact ⟨rfl, rfl⟩
      | strays hc _ _ => exact absurd rfl hc
  | strays hc hd _ =>
      cases h' with
      | cuts _ => exact absurd rfl hd
      | doubles => exact absurd rfl hc
      | strays _ _ _ => exact ⟨rfl, rfl⟩

/-- Whoever sees the delimiters on the same side of the quotes counts one with each that ends a
field. -/
theorem countFrom (h : Reads d s mode c x) (hq : d ≠ '"') {inside : Bool}
    (hc : c = d → (mode = .quoted ↔ inside = true)) (n : Nat) (r : List Char) :
    Delimited.countFrom d inside n (c :: r) = Delimited.countFrom d (inside != (c == '"'))
      (n + if c = d ∧ mode ≠ .quoted then 1 else 0) r := by
  by_cases hquote : c = '"'
  · subst hquote
    rw [countFrom_quote hq, if_neg fun h => hq h.1.symm]
    simp
  · rw [beq_eq_false_iff_ne.mpr hquote, Bool.bne_false]
    by_cases hd : c = d
    · subst hd
      by_cases hm : mode = .quoted
      · have hin := (hc rfl).mp hm
        subst hin
        rw [countFrom_hidden hquote, if_neg fun h => h.2 hm]
        rfl
      · have hin : inside = false := by
          rw [← Bool.not_eq_true]
          exact fun hin => hm ((hc rfl).mpr hin)
        subst hin
        rw [countFrom_self hq, if_pos ⟨rfl, hm⟩]
    · rw [countFrom_other hquote hd, if_neg fun h => hd h.1]
      rfl

end Reads

/-! ## Lines -/

/-- **In an aligned line the scan ends fields where the delimiter is counted.** It goes on outside
quotes, and if anything is in the line, something was read of it. -/
theorem scan_aligned (hq : d ≠ '"') {l rest : List Char} {inside : Bool}
    (hl : alignedFrom d mode s.fresh inside l = true) (hfeed : '\n' ∉ l)
    (hs : mode ≠ .bare → s.fresh = false) (hrest : EndsField d rest) :
    ∃ t, scan d none mode s (l ++ rest) = scan d none .bare t rest ∧ t.done = s.done
      ∧ t.fields.length = countFrom d inside s.fields.length l
      ∧ (l ≠ [] → t.atLineStart = false) ∧ (l = [] → t = s) := by
  induction l generalizing mode s inside with
  | nil =>
      refine ⟨s, ?_, rfl, rfl, fun h => absurd rfl h, fun _ => rfl⟩
      cases mode with
      | bare => rfl
      | closing => exact scan_closing hq hrest
      | quoted => exact absurd hl (by simp [alignedFrom])
  | cons c l ih =>
      rw [alignedFrom, Bool.and_eq_true, Bool.and_eq_true] at hl
      obtain ⟨⟨hret, hside⟩, hl⟩ := hl
      have hn : c ≠ '\n' := fun h => hfeed (h ▸ List.mem_cons_self)
      have hr : c = '\r' → mode = .quoted := by
        intro h
        simpa [h] using hret
      have hc : c = d → (mode = .quoted ↔ inside = true) := by
        intro h
        have h := by simpa [h] using hside
        rw [← h]
        simp
      obtain ⟨hreads, hblind⟩ := step_reads (s := s) hq hn hr
      obtain ⟨hmode, hfresh⟩ := hreads.alike hq (t := { fresh := s.fresh })
        (step_reads hq hn hr).1 rfl
      rw [← hmode, ← hfresh] at hl
      obtain ⟨hbegun, hread⟩ := hreads.begun hs
      obtain ⟨t, hscan, hdone, hfields, hstart, hnil⟩ :=
        ih hl (fun h => hfeed (List.mem_cons_of_mem _ h)) hread
      refine ⟨t, ?_, hdone.trans hreads.done, ?_, fun _ => ?_, fun h => absurd h (by simp)⟩
      · rw [List.cons_append, scan_cons, hblind, hscan]
      · rw [hfields, hreads.fields hq, hreads.countFrom hq hc]
      · by_cases hlast : l = []
        · rw [hnil hlast]
          exact hbegun
        · exact hstart hlast

/-- **A text as its lines.** -/
inductive Ruled : List Char → List (List Char) → Prop
  | nil : Ruled [] []
  | line {l e cs : List Char} {ls : List (List Char)} : '\n' ∉ l → e = ['\n'] ∨ e = ['\r', '\n'] →
      Ruled cs ls → Ruled (l ++ (e ++ cs)) (l :: ls)
  /-- The last line may go without an end. -/
  | unended {l : List Char} : '\n' ∉ l → l ≠ [] → Ruled l [l]

/-- The lines that are finished stand in front. -/
theorem linesFrom_done (line : List Char) (done : List (List Char)) (cs : List Char) :
    Text.linesFrom line done cs = done.reverse ++ Text.linesFrom line [] cs := by
  induction cs generalizing line done with
  | nil =>
      rw [Text.linesFrom, Text.linesFrom]
      split <;> simp
  | cons c cs ih =>
      by_cases hc : c = '\n'
      · subst hc
        rw [Text.linesFrom, Text.linesFrom, ih, ih _ [_]]
        simp
      · rw [Text.linesFrom, Text.linesFrom, ih]
        · exact hc
        · exact hc

/-- A line ends at its line feed, and a carriage return before that is a part of the end. -/
theorem linesOf_line {l : List Char} (hl : '\n' ∉ l) (cs : List Char) :
    Text.linesOf (l ++ '\n' :: cs)
      = (Text.dropReturn l.reverse).reverse :: Text.linesOf cs := by
  unfold Text.linesOf
  rw [linesFrom_append hl, List.append_nil, Text.linesFrom, linesFrom_done]
  rfl

theorem linesOf_unended {l : List Char} (hl : '\n' ∉ l) (hsome : l ≠ []) :
    Text.linesOf l = [l] := by
  have happend := linesFrom_append hl [] [] []
  rw [List.append_nil, List.append_nil] at happend
  unfold Text.linesOf
  rw [happend, Text.linesFrom, if_neg (by simpa using hsome), List.reverse_reverse]
  rfl

theorem ruled (cs : List Char) : Ruled cs (Text.linesOf cs) := by
  induction hn : cs.length using Nat.strongRecOn generalizing cs with
  | ind n ih =>
    by_cases hfeed : '\n' ∈ cs
    · obtain ⟨l, rest, rfl, hl⟩ := List.eq_append_cons_of_mem hfeed
      have hrest := ih rest.length (by simp at hn; omega) rest rfl
      rw [linesOf_line hl]
      cases hlast : l.reverse with
      | nil =>
          have hnil : l = [] := List.reverse_eq_nil_iff.mp hlast
          subst hnil
          exact .line hl (Or.inl rfl) hrest
      | cons c r =>
          have hl' : l = r.reverse ++ [c] := by
            rw [← List.reverse_reverse l, hlast, List.reverse_cons]
          by_cases hc : c = '\r'
          · subst hc hl'
            have htext : r.reverse ++ ['\r'] ++ '\n' :: rest
                = r.reverse ++ (['\r', '\n'] ++ rest) := List.append_assoc ..
            rw [htext]
            exact .line (fun h => hl (List.mem_append_left _ h)) (Or.inr rfl) hrest
          · have hkept : Text.dropReturn (c :: r) = c :: r := by
              unfold Text.dropReturn
              split
              · exact absurd (List.cons.inj ‹_›).1 hc
              · rfl
            rw [hkept, ← hlast, List.reverse_reverse]
            exact .line hl (Or.inl rfl) hrest
    · by_cases hsome : cs = []
      · subst hsome
        exact .nil
      · rw [linesOf_unended hfeed hsome]
        exact .unended hfeed hsome

/-! ## Texts -/

theorem Scan.length_record (s : Scan) : s.record.length - 1 = s.fields.length := by
  unfold record
  rw [List.length_reverse, List.length_cons]
  rfl

/-- **The records of a text of aligned lines are its lines that are not empty**, each cut where its
delimiters are counted. -/
theorem scan_ruled (hd : d ∈ candidates) {cs : List Char} {ls : List (List Char)}
    (h : Ruled cs ls) (hls : ∀ l ∈ ls, aligned d l = true) (done : List Record) :
    ∃ more, scan d none .bare { done } cs = done.reverse ++ more
      ∧ more.map (fun r => r.length - 1)
        = (ls.filter fun l => !l.isEmpty).map (count d) := by
  have hq := (candidates_ne hd).1
  induction h generalizing done with
  | nil => exact ⟨[], (List.append_nil _).symm, rfl⟩
  | @line l e cs ls hfeed he _ ih =>
      have hend : e ∈ lineEnds := by
        rcases he with rfl | rfl <;> simp [lineEnds]
      obtain ⟨hl, hothers⟩ := List.forall_mem_cons.mp hls
      have hfresh : alignedFrom d .bare (Scan.fresh { done }) false l = true := hl
      obtain ⟨t, hscan, hdone, hfields, hstart, hnil⟩ :=
        scan_aligned hq hfresh hfeed (fun h => absurd rfl h) (endsField_lineEnd d hend cs)
      rw [hscan, scan_lineEnd d t hend]
      unfold Scan.endLine
      by_cases hempty : l = []
      · subst hempty
        have hstay : Scan.atLineStart { done } = true := rfl
        rw [hnil rfl, if_pos hstay]
        exact ih hothers done
      · rw [hstart hempty, if_neg (by simp), Scan.endRecord_eq, hdone]
        obtain ⟨more, hmore, hcuts⟩ := ih hothers (t.record :: done)
        refine ⟨t.record :: more, ?_, ?_⟩
        · rw [hmore, List.reverse_cons, List.append_assoc]
          rfl
        · rw [List.filter_cons_of_pos (by simpa using hempty), List.map_cons, List.map_cons, hcuts,
            t.length_record, hfields]
          rfl
  | @unended l hfeed hsome =>
      have hfresh : alignedFrom d .bare (Scan.fresh { done }) false l = true :=
        hls l (List.mem_singleton_self l)
      obtain ⟨t, hscan, hdone, hfields, hstart, _⟩ :=
        scan_aligned hq hfresh hfeed (fun h => absurd rfl h) (endsField_nil d)
      rw [List.append_nil] at hscan
      refine ⟨[t.record], ?_, ?_⟩
      · rw [hscan, scan, Scan.finish, hstart hsome, if_neg (by simp), Scan.endRecord_eq, hdone]
        exact List.reverse_cons
      · rw [List.filter_cons_of_pos (by simpa using hsome), List.map_singleton, t.length_record,
          hfields]
        rfl

theorem cuts_eq (hd : d ∈ candidates) {cs : List Char}
    (hls : ∀ l ∈ Text.linesOf cs, aligned d l = true) :
    cuts d cs = (filledLines cs).map (count d) := by
  obtain ⟨more, hmore, hcuts⟩ := scan_ruled hd (ruled cs) hls []
  have hrecords : records cs d none = more := hmore
  unfold cuts
  rw [hrecords]
  exact hcuts

/-- The lines that are looked at are the first that are not empty. -/
theorem sample_eq {cs : List Char} (h : Surveyed cs) : sample cs = filledLines cs := by
  have hfilter : (Text.linesOf cs).filter (fun l => !l.all Text.isBlank) = filledLines cs := by
    refine List.filter_congr fun l hl => ?_
    by_cases hempty : l = []
    · subst hempty
      rfl
    · have hempty : l.isEmpty = false := by simpa using hempty
      rw [h.visible l (List.mem_filter.mpr ⟨hl, by rw [hempty]; rfl⟩), hempty]
  unfold sample
  rw [hfilter]
  exact List.take_of_length_le h.few

/-! ## Lines without stray quotes -/

theorem alignedFrom_of_tidyFrom (hq : d ≠ '"') {fresh : Bool} {l : List Char}
    (hfeed : '\n' ∉ l) (hl : tidyFrom d mode fresh l = true) :
    alignedFrom d mode fresh (mode == .quoted) l = true := by
  induction l generalizing mode fresh with
  | nil => exact hl
  | cons c l ih =>
      rw [tidyFrom, Bool.and_eq_true, Bool.and_eq_true, Bool.and_eq_true] at hl
      obtain ⟨⟨⟨hret, hopen⟩, hclose⟩, hl⟩ := hl
      have hrest := ih (fun h => hfeed (List.mem_cons_of_mem _ h)) hl
      have hn : c ≠ '\n' := fun h => hfeed (h ▸ List.mem_cons_self)
      have hr : c = '\r' → mode = .quoted := by
        intro h
        simpa [h] using hret
      -- a quote that is not stray changes sides for both
      have hside : ((step d none mode { fresh } c).1 == .quoted)
          = ((mode == .quoted) != (c == '"')) := by
        have hreads := (step_reads (s := { fresh }) hq hn hr).1
        generalize step d none mode { fresh } c = x at hreads
        cases hreads with
        | opens _ => rfl
        | keeps hkeep _ =>
            have hkeep : c = '"' → fresh = false := hkeep
            have hc : c ≠ '"' := by
              rintro rfl
              rw [hkeep rfl] at hopen
              exact absurd hopen (by decide)
            rw [beq_eq_false_iff_ne.mpr hc]
            rfl
        | cuts hm =>
            rw [beq_eq_false_iff_ne.mpr hm, beq_eq_false_iff_ne.mpr hq]
            rfl
        | hides hc =>
            rw [beq_eq_false_iff_ne.mpr hc]
            rfl
        | closes => rfl
        | doubles => rfl
        | strays hc _ hend =>
            rw [hend, beq_eq_false_iff_ne.mpr hc] at hclose
            exact absurd hclose (by decide)
      unfold alignedFrom
      dsimp only
      rw [hret, ← hside, hrest]
      simp

/-- The lines of a text have no line feeds in them. -/
theorem Ruled.inline {cs : List Char} {ls : List (List Char)} (h : Ruled cs ls) :
    ∀ l ∈ ls, '\n' ∉ l := by
  induction h with
  | nil => exact List.forall_mem_nil _
  | line hl _ _ ih => exact List.forall_mem_cons.mpr ⟨hl, ih⟩
  | unended hl _ => exact List.forall_mem_singleton.mpr hl

/-- **A candidate is judged by the splits that it makes**, in a text that is looked at as a whole
and whose lines are aligned. Those are the lines without stray quotes, and others. -/
theorem counts_eq_cuts (hd : d ∈ candidates) {cs : List Char} (h : Surveyed cs) :
    ((∀ l ∈ Text.linesOf cs, aligned d l = true) → counts d cs = cuts d cs)
      ∧ ∀ l ∈ Text.linesOf cs, tidy d l = true → aligned d l = true := by
  refine ⟨fun hls => ?_, fun l hl ht => ?_⟩
  · unfold counts
    rw [sample_eq h, cuts_eq hd hls]
  · exact alignedFrom_of_tidyFrom (candidates_ne hd).1 ((ruled cs).inline l hl) ht

/-- Quotes of all kinds, a pair of stray ones among them, an empty line, and line ends of both
kinds. -/
theorem counts_eq_cuts_quoted :
    let cs := "a|\"b|\"\"c\"\r\n\n\"\"|x\"y\"|\n".toList
    '|' ∈ candidates ∧ Surveyed cs ∧ (∀ l ∈ Text.linesOf cs, aligned '|' l = true)
      ∧ counts '|' cs = cuts '|' cs ∧ cuts '|' cs = [1, 2] := by
  intro cs
  have hd : '|' ∈ candidates := by decide
  have h : Surveyed cs := ⟨by decide, by decide⟩
  have hls : ∀ l ∈ Text.linesOf cs, aligned '|' l = true := by decide
  exact ⟨hd, h, hls, (counts_eq_cuts hd h).1 hls, by decide⟩

/-- With a stray quote in each line the bar cuts both lines in two and is counted in neither, so it
is not found. A quoted field that goes over the end of its line, and a carriage return alone, make
another number of records than of lines. -/
theorem stray_quote_counts :
    let stray := "5\" disk|1\n6\" tape|2\n".toList
    let spanning := "\"a\nb\"|c\n".toList
    let returned := "a\rb|c\n".toList
    '|' ∈ candidates ∧ Surveyed stray ∧ Surveyed spanning ∧ Surveyed returned
      ∧ (counts '|' stray = [0, 0] ∧ cuts '|' stray = [1, 1] ∧ sniff stray = ',')
      ∧ (counts '|' spanning = [0, 0] ∧ cuts '|' spanning = [1])
      ∧ (counts '|' returned = [1] ∧ cuts '|' returned = [0, 1]) := by
  intro stray spanning returned
  exact ⟨by decide, ⟨by decide, by decide⟩, ⟨by decide, by decide⟩, ⟨by decide, by decide⟩,
    by decide, by decide, by decide⟩

end Intake.Delimited
