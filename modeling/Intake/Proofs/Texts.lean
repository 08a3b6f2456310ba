import Intake.Proofs.Aftermath
import Intake.Proofs.Encoding
import Intake.Proofs.Reports
import Intake.Proofs.Tasks

/-!
# A file that is text is read

The type of a file is told from its first 512 bytes, and which extractor is asked from that, the
declared type and the name. Then the extractor reads the whole file. A text in UTF-8 whose
beginning holds no control bytes and bears no signature passes each of these: the cut at 512
bytes makes no fault of a character that it goes through, the standard table has an extractor
for every text, and the extractors for texts refuse nothing that is UTF-8.

`text_accepted` says so of a worker with such a file, among others that use the spools: it is
done after six steps, and its report says that the file was read, or that nothing is in it.
-/

namespace Intake

/-- A text whose beginning is not taken for binary data. -/
structure PlainText.Unmarked (cs : List Char) : Prop where
  controls : ((Utf8.encode cs).take Media.sniffLength).any Media.isBinaryControl = false
  unsigned : Media.Signature.detect? ((Utf8.encode cs).take Media.sniffLength) = none

/-! ## Its type -/

/-- **A text is detected as one**, also if it is cut inside a character. -/
theorem Media.sniff_text {cs : List Char} (h : PlainText.Unmarked cs) :
    Media.sniff (Utf8.encode cs) = Media.textPlainUtf8 := by
  have hlooks : Media.looksLikeText ((Utf8.encode cs).take Media.sniffLength) = true := by
    unfold Media.looksLikeText
    rw [h.controls]
    obtain ⟨k, hk | hk⟩ := Utf8.read_take cs Media.sniffLength
    · rw [hk]
      rfl
    · rw [hk]
      rfl
  unfold Media.sniff
  dsimp only
  rw [h.unsigned]
  dsimp only
  rw [if_pos hlooks]

/-! ## Its extractor -/

namespace Extractor

/-- The extractor for a text: by its declared type, then by its name. -/
def forText (rows : Nat) (p : Probe) : Extractor :=
  if p.declaredEssence? = some "text/csv" then delimited
  else if p.extension? = some "csv" ∨ p.extension? = some "tsv" then delimitedPreview rows
  else text

/-- No extractor for texts waits at a gate. -/
theorem forText_gate (rows : Nat) (p : Probe) : (forText rows p).gate = none := by
  unfold forText
  split
  · rfl
  · split <;> rfl

end Extractor

theorem ExtractorTable.routeAmong_when (test : Probe → Bool) (x : Extractor) (p : Probe)
    (rs : List Route) :
    routeAmong p (.when test x :: rs)
      = if test p = true then .returned (some x) else routeAmong p rs := by
  conv_lhs => unfold routeAmong Route.when
  dsimp only
  cases test p <;> rfl

/-- **The standard table has an extractor for every text.** -/
theorem ExtractorTable.route_text (rows : Nat) {p : Probe} (hp : p.detected = Media.textPlainUtf8) :
    (standard rows).route p = .returned (some (.forText rows p)) := by
  have hoffice : Route.isOffice p = false := by
    unfold Route.isOffice
    rw [hp]
    rfl
  have hpdf : Route.isPdf p = false := by
    unfold Route.isPdf
    rw [hp]
    rfl
  have htext : Route.isText p = true := by
    unfold Route.isText
    rw [hp]
    rfl
  have hdeclared : Route.isDeclaredTable p = true ↔ p.declaredEssence? = some "text/csv" :=
    beq_iff_eq
  have hnamed : Route.isNamedTable p = true
      ↔ p.extension? = some "csv" ∨ p.extension? = some "tsv" := by
    have htype : Media.isText p.detected = true := htext
    unfold Route.isNamedTable
    rw [htype, Bool.true_and, Bool.or_eq_true, beq_iff_eq, beq_iff_eq]
  show routeAmong p (standardRoutes rows) = _
  unfold standardRoutes
  rw [routeAmong_when, hoffice, if_neg (by decide), routeAmong_when, hpdf, if_neg (by decide),
    routeAmong_when, routeAmong_when, routeAmong_when, if_pos htext]
  unfold Extractor.forText
  by_cases h1 : p.declaredEssence? = some "text/csv"
  · rw [if_pos (hdeclared.mpr h1), if_pos h1]
  · rw [if_neg (fun h => h1 (hdeclared.mp h)), if_neg h1]
    by_cases h2 : p.extension? = some "csv" ∨ p.extension? = some "tsv"
    · rw [if_pos (hnamed.mpr h2), if_pos h2]
    · rw [if_neg (fun h => h2 (hnamed.mp h)), if_neg h2]

/-! ## Its content -/

namespace PlainText

/-- A text without a byte-order mark in front. -/
def unmark (cs : List Char) : List Char :=
  if cs.head? = some mark then cs.tail else cs

theorem chars?_encode (cs : List Char) : chars? (Utf8.encode cs) = .ok (unmark cs) := by
  unfold chars?
  rw [Utf8.decode?_encode]
  cases cs with
  | nil => rfl
  | cons c cs =>
      unfold unmark
      dsimp only
      by_cases hc : c = mark
      · rw [if_pos hc, hc]
        rfl
      · rw [if_neg hc, if_neg (by simpa using hc)]

/-- What is found in a text. -/
def found (rows : Nat) (p : Probe) (cs : List Char) : String :=
  let cs := unmark cs
  let table (limit : Option Nat) : String :=
    Delimited.render (Delimited.records cs (Delimited.sniff cs) limit)
  if p.declaredEssence? = some "text/csv" then table none
  else if p.extension? = some "csv" ∨ p.extension? = some "tsv" then table (some rows)
  else String.ofList cs

/-- **The extractor finds something in every text.** -/
theorem extract_forText (rows : Nat) (p : Probe) (cs : List Char) :
    (Extractor.forText rows p).extract (Utf8.encode cs) = .returned (.ok (found rows p cs)) := by
  have hchars := chars?_encode cs
  unfold Extractor.forText found
  dsimp only
  split
  · show Conduct.returned (Delimited.extract none _) = _
    unfold Delimited.extract
    rw [hchars]
    rfl
  · split
    · show Conduct.returned (Delimited.extract (some rows) _) = _
      unfold Delimited.extract
      rw [hchars]
      rfl
    · show Conduct.returned (extract _) = _
      unfold extract
      rw [hchars]
      rfl

end PlainText

/-- What is said of a text in the end. -/
def Assessment.ofText (text : String) : Assessment :=
  if Text.trim text = "" then {
    detected := some Media.textPlainUtf8
    outcome := .emptyContent
    content := none
    reason := some "empty content" }
  else {
    detected := some Media.textPlainUtf8
    outcome := .success
    content := some text
    reason := none }

/-- How a file is seen that is a text. -/
def PlainText.probe (fileName : String) (declared : Option String) : Probe :=
  { fileName, declared, detected := Media.textPlainUtf8 }

/-- **A worker asks the extractor for texts.** -/
theorem Examination.of_text {cs : List Char} (h : PlainText.Unmarked cs) (rows : Nat)
    (fileName : String) (declared : Option String) :
    Examination.of (.standard rows) fileName declared (.readable (Utf8.encode cs))
      = .ask Media.textPlainUtf8 (.forText rows (PlainText.probe fileName declared))
          (Utf8.encode cs) := by
  unfold Examination.of
  dsimp only
  rw [Media.sniff_text h, ExtractorTable.route_text rows rfl]
  rfl

theorem Examination.finding_text {cs : List Char} (h : PlainText.Unmarked cs) (rows : Nat)
    (fileName : String) (declared : Option String) :
    (Examination.of (.standard rows) fileName declared (.readable (Utf8.encode cs))).finding
      = ⟨some Media.textPlainUtf8,
          .ok (PlainText.found rows (PlainText.probe fileName declared) cs)⟩ := by
  rw [of_text h]
  unfold finding Finding.ofExtraction
  dsimp only
  rw [PlainText.extract_forText]

theorem Assessment.ofFile_text {cs : List Char} (h : PlainText.Unmarked cs) (rows : Nat)
    (fileName : String) (declared : Option String) :
    ofFile (.standard rows) fileName declared (.readable (Utf8.encode cs))
      = ofText (PlainText.found rows (PlainText.probe fileName declared) cs) := by
  rw [ofFile_eq, Examination.finding_text h]
  unfold ofFinding Worker.judge ofText
  dsimp only
  by_cases hb : Text.trim (PlainText.found rows (PlainText.probe fileName declared) cs) = ""
  · rw [if_pos hb, if_pos ((blank_iff_trim _).mpr hb)]
    rfl
  · rw [if_neg hb, if_neg (fun ht => hb ((blank_iff_trim _).mp ht))]

/-! ## A worker at such a file -/

/-- A worker, with what it shares with others. -/
structure Desk where
  worker : Worker
  spools : Spools
  gates : List String

namespace Desk

/-- What can happen next. -/
inductive Move where
  /-- The worker takes a step, if it can. -/
  | step
  /-- Others use the spools, but not the worker's, and gates open and close. -/
  | others (spools : Spools) (gates : List String)

/-- Holds of the worker's own moves. -/
def Move.isStep : Move → Bool
  | step => true
  | others _ _ => false

/-- The state of things after a move. -/
def move (table : ExtractorTable) (d : Desk) : Move → Desk
  | .step =>
    match d.worker.step? table d.gates d.spools with
    | some s => { d with worker := s.worker, spools := s.spools }
    | none => d
  | .others spools gates =>
    if spools.state d.worker.spool = d.spools.state d.worker.spool then { d with spools, gates }
    else d

/-- The state of things after some moves. -/
def play (table : ExtractorTable) (d : Desk) (ms : List Move) : Desk :=
  ms.foldl (move table) d

/-- **The invariant of a worker at its file.** -/
structure Inv (table : ExtractorTable) (files : Spool → FileState) (w₀ : Worker) (d : Desk) :
    Prop where
  alike : w₀.Alike d.worker
  consistent : d.worker.Consistent
  faithful : d.worker.Faithful table files
  untouched : d.worker.phase.isEarly = true → d.spools.state d.worker.spool = files d.worker.spool

variable {table : ExtractorTable} {files : Spool → FileState} {w₀ : Worker} {d : Desk}

theorem inv_start {task : FileTask} {spool : Spool} {spools : Spools} (gates : List String)
    (hstate : task.state = .queued) (hreason : task.reason = none) (hcontent : task.content = none)
    (hfile : spools.state spool = files spool) :
    Inv table files { task, spool } { worker := { task, spool }, spools, gates } where
  alike := ⟨rfl, rfl, rfl, rfl, rfl⟩
  consistent := Worker.consistent_new hstate hreason
  faithful := hcontent
  untouched := fun _ => hfile

/-- **Preserved by every move.** -/
theorem inv_move (hi : Inv table files w₀ d) (m : Move) : Inv table files w₀ (d.move table m) := by
  cases m with
  | step =>
      dsimp only [move]
      cases hs : d.worker.step? table d.gates d.spools with
      | none => exact hi
      | some s =>
          have ht := Worker.step?_tells hi.consistent hs
          obtain ⟨hfaithful, hhandles, _⟩ :=
            Worker.step?_faithful hi.consistent hi.faithful hi.untouched hs
          refine ⟨hi.alike.trans ht.alike, ht.consistent, hfaithful, fun hearly => ?_⟩
          obtain ⟨hbefore, hsame⟩ := hhandles.early hearly
          show s.spools.state s.worker.spool = files s.worker.spool
          rw [hsame, ht.alike.spool]
          exact hi.untouched hbefore
  | others spools gates =>
      dsimp only [move]
      split
      · rename_i hsame
        exact ⟨hi.alike, hi.consistent, hi.faithful, fun hearly => hsame.trans (hi.untouched hearly)⟩
      · exact hi

theorem inv_play (hi : Inv table files w₀ d) (ms : List Move) :
    Inv table files w₀ (d.play table ms) := by
  induction ms generalizing d with
  | nil => exact hi
  | cons m ms ih => exact ih (inv_move hi m)

/-- A worker that no gate keeps waiting is done after as many steps as it has left. -/
theorem left_play (hi : Inv table files w₀ d) (ms : List Move)
    (hfree : ∀ d' : Desk, Inv table files w₀ d' → d'.worker.isBlocked d'.gates = false) :
    (d.play table ms).worker.phase.left ≤ d.worker.phase.left - ms.countP Move.isStep := by
  induction ms generalizing d with
  | nil => exact Nat.le_refl _
  | cons m ms ih =>
      have hrest := ih (inv_move hi m)
      have hplay : d.play table (m :: ms) = (d.move table m).play table ms := rfl
      rw [hplay]
      cases m with
      | step =>
          rw [List.countP_cons_of_pos rfl]
          have hstep : (d.move table .step).worker.phase.left ≤ d.worker.phase.left - 1 := by
            dsimp only [move]
            cases hs : d.worker.step? table d.gates d.spools with
            | some s =>
                have hless := Worker.step?_left hs
                dsimp only
                omega
            | none =>
                cases ho : d.worker.phase.isOver with
                | true =>
                    have hp := Worker.finished_of_over hi.consistent ho
                    dsimp only
                    rw [hp]
                    exact Nat.zero_le _
                | false =>
                    have hblocked := Worker.isBlocked_of_stuck hs ho
                    rw [hfree d hi] at hblocked
                    exact absurd hblocked (by simp)
          omega
      | others spools gates =>
          rw [List.countP_cons_of_neg (by simp [Move.isStep])]
          have hsame : (d.move table (.others spools gates)).worker = d.worker := by
            dsimp only [move]
            split <;> rfl
          rw [hsame] at hrest
          exact hrest

/-! ### A text -/

section

variable {cs : List Char} {rows : Nat}

/-- A worker at a text is not kept waiting. -/
theorem Inv.free (h : PlainText.Unmarked cs)
    (hi : Inv (.standard rows) (fun _ => .readable (Utf8.encode cs)) w₀ d) :
    d.worker.isBlocked d.gates = false := by
  have hf := hi.faithful
  unfold Worker.Faithful at hf
  unfold Worker.isBlocked
  cases hp : d.worker.phase with
  | reading detected x content =>
      rw [hp] at hf
      have hask := hf.2
      unfold Worker.exam at hask
      rw [Examination.of_text h] at hask
      cases hask
      dsimp only
      unfold Worker.gateOpen
      rw [Extractor.forText_gate]
      rfl
  | _ => rfl

/-- **What comes of a text.** -/
structure Accepts (cs : List Char) (rows : Nat) (task : FileTask) (ms : List Move) (d : Desk) :
    Prop where
  /-- Six steps of the worker are enough, whatever the others do in between. -/
  done : 6 ≤ ms.countP Move.isStep → d.worker.phase = .finished
  /-- It is a text, and the extractor is the one for its declared type or its name. -/
  asks : ∀ detected x content, d.worker.phase = .reading detected x content →
    detected = Media.textPlainUtf8
      ∧ x = .forText rows (PlainText.probe task.fileName task.declared)
      ∧ content = Utf8.encode cs
  /-- Something is found in it. -/
  finds : ∀ finding, d.worker.phase = .judging finding → finding = ⟨some Media.textPlainUtf8,
    .ok (PlainText.found rows (PlainText.probe task.fileName task.declared) cs)⟩
  /-- The report says so, or that this is blank. -/
  reports : d.worker.phase = .finished → d.worker.report
    = (Assessment.ofText (PlainText.found rows (PlainText.probe task.fileName task.declared)
        cs)).report task.id task.fileName task.declared

theorem Inv.accepts (h : PlainText.Unmarked cs) {task : FileTask} {spool : Spool}
    {ms : List Move}
    (hi : Inv (.standard rows) (fun _ => .readable (Utf8.encode cs)) { task, spool } d)
    (hleft : d.worker.phase.left ≤ 6 - ms.countP Move.isStep) : Accepts cs rows task ms d := by
  have hname : d.worker.task.fileName = task.fileName := hi.alike.fileName
  have hdeclared : d.worker.task.declared = task.declared := hi.alike.declared
  have hid : d.worker.task.id = task.id := hi.alike.id
  have hf := hi.faithful
  unfold Worker.Faithful at hf
  refine { done := ?_, asks := ?_, finds := ?_, reports := ?_ }
  · intro hsix
    refine Worker.finished_of_over hi.consistent ?_
    have hzero : d.worker.phase.left = 0 := by omega
    cases hp : d.worker.phase with
    | finished => rfl
    | lost => rfl
    | _ =>
        rw [hp] at hzero
        exact absurd hzero (by simp [WorkerPhase.left])
  · intro detected x content hp
    rw [hp] at hf
    have hask := hf.2
    unfold Worker.exam at hask
    rw [hname, hdeclared, Examination.of_text h] at hask
    cases hask
    exact ⟨rfl, rfl, rfl⟩
  · intro finding hp
    rw [hp] at hf
    have hfound := hf.2
    unfold Worker.exam at hfound
    rw [hname, hdeclared, Examination.finding_text h] at hfound
    exact hfound.symm
  · intro hp
    have hreport := Worker.report_faithful hi.consistent hi.faithful (by rw [hp]; rfl)
    rw [hreport, hname, hdeclared, hid, Assessment.ofFile_text h]

end

/-- **A text is never refused.** A worker reads it under the standard table, whatever its length,
its name, its declared type and the number of rows that are shown of tables. -/
theorem text_accepted {cs : List Char} (h : PlainText.Unmarked cs) (rows : Nat)
    (session id fileName : String) (declared : Option String) {spool : Spool} {spools : Spools}
    (hfile : spools.state spool = .readable (Utf8.encode cs)) (gates : List String)
    (ms : List Move) :
    let task := FileTask.fresh session id fileName declared
    Accepts cs rows task ms
      (play (.standard rows) { worker := { task, spool }, spools, gates } ms) := by
  intro task
  have hi : Inv (.standard rows) (fun _ => .readable (Utf8.encode cs)) { task, spool }
      { worker := { task, spool }, spools, gates } :=
    inv_start gates rfl rfl rfl hfile
  exact (inv_play hi ms).accepts h (left_play hi ms fun d' hi' => hi'.free h)

/-- A text with a byte-order mark, while another file is written. -/
theorem text_accepted_marked :
    let cs : List Char := ['\uFEFF', 'h', 'é', '\n']
    let task := FileTask.fresh "s" "t" "notes" (some "application/pdf")
    let spools : Spools := { files := [.readable (Utf8.encode cs)] }
    let more : Spools := { files := [.readable (Utf8.encode cs), .readable [0]] }
    let ms : List Move := [.step, .others more []] ++ List.replicate 5 .step
    let d := play (.standard 10) { worker := { task, spool := 0 }, spools, gates := [] } ms
    PlainText.Unmarked cs ∧ spools.state 0 = .readable (Utf8.encode cs) ∧ Accepts cs 10 task ms d
      ∧ d.worker.report.content = some "hé\n" := by
  intro cs task spools more ms d
  have hunmarked : PlainText.Unmarked cs := ⟨by decide, by decide +kernel⟩
  have hfile : spools.state 0 = .readable (Utf8.encode cs) := rfl
  exact ⟨hunmarked, hfile, text_accepted hunmarked 10 "s" "t" "notes" _ hfile [] ms,
    by decide +kernel⟩

end Desk
end Intake
