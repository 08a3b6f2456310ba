import Mathlib.Data.List.TakeWhile
import Intake.Proofs.Lines

/-!
# What is said of a file that is read alone

A session gives each file a worker, which takes it through several phases among all the other
workers. This module says in one piece what should come of it: open the file, read its
beginning, ask the first route that does not decline, and look at what its extractor gives.
`Assessment.ofFile` is that reading, with the wording of every failure.

`Assessment.ofFile_eq` says that the two halves in which a worker reads a file come to the
same, and `Worker.Faithful` that a worker in some phase is on its way to it.
-/

namespace Intake

/-- What is said of a file in the end. -/
structure Assessment where
  detected : Option String
  outcome : TaskOutcome
  content : Option String
  reason : Option String
  deriving DecidableEq, Repr

namespace Assessment

/-- No text was found. -/
def failure (detected : Option String) (reason : String) : Assessment where
  detected
  outcome := .processingError
  content := none
  reason := some reason

/-- What an extractor's answer comes to. One that gave up leaves no detected type. -/
def ofAnswer (detected name : String) : Conduct (Except ExtractionError String) → Assessment
  | .panicked note => failure none ("extractor panicked: " ++ Conduct.note note)
  | .returned (.error e) =>
    failure (some detected) (name ++ " extraction failed: " ++ e.message)
  | .returned (.ok text) =>
    if Text.trim text = "" then {
      detected := some detected
      outcome := .emptyContent
      content := none
      reason := some "empty content" }
    else { detected := some detected, outcome := .success, content := some text, reason := none }

/-- Asks the first route whose test does not decline. -/
def ofRoutes (routes : List Route) (probe : Probe) (content : Bytes) : Assessment :=
  match routes.find? fun route => route.test probe != .returned false with
  | none => failure (some probe.detected) "unsupported content"
  | some route =>
    match route.test probe with
    | .panicked note => failure none ("extractor panicked: " ++ Conduct.note note)
    | .returned _ => ofAnswer probe.detected route.extractor.name (route.extractor.extract content)

/-- **Reads a file alone.** -/
def ofFile (table : ExtractorTable) (fileName : String) (declared : Option String) :
    FileState → Assessment
  | .removed => failure none ("cannot open uploaded file: " ++ missingFile)
  | .unreadable detail => failure none ("cannot read uploaded file: " ++ detail)
  | .readable content =>
    ofRoutes table.routes { fileName, declared, detected := Media.sniff content } content

/-- The report on a task whose file was assessed. -/
def report (a : Assessment) (id fileName : String) (declared : Option String) : TaskReport where
  id
  fileName
  declared
  detected := a.detected
  state := .completed
  outcome := some a.outcome
  content := a.content
  reason := a.reason

/-- What a worker's finding comes to. -/
def ofFinding (finding : Finding) : Assessment :=
  match Worker.judge finding with
  | .ok text =>
    { detected := finding.detected, outcome := .success, content := some text, reason := none }
  | .error f => {
    detected := finding.detected
    outcome := f.outcome
    content := none
    reason := some f.message }

end Assessment

/-- The finding at the end of an examination, when the extractor has answered if one is asked. -/
def Examination.finding : Examination → Finding
  | found finding => finding
  | ask detected x content => Finding.ofExtraction detected x content

/-! ## The two readings agree -/

/-- A text is blank exactly if nothing is left of it when it is trimmed. -/
theorem blank_iff_trim (s : String) : Text.blank s = true ↔ Text.trim s = "" := by
  have hchars : ∀ cs : List Char, cs.all Text.isBlank = true ↔ Text.trimChars cs = [] := by
    intro cs
    unfold Text.trimChars
    rw [List.reverse_eq_nil_iff, List.dropWhile_eq_nil_iff, List.all_eq_true]
    constructor
    · intro hall c hc
      exact hall c ((List.dropWhile_sublist _).subset (List.mem_reverse.mp hc))
    · -- a character that is kept in front cannot be dropped from behind
      intro hrest
      have hnil : cs.dropWhile Text.isBlank = [] := by
        by_contra hne
        have hhead := List.head_dropWhile_not Text.isBlank hne
        rw [hrest _ (List.mem_reverse.mpr (List.head_mem hne))] at hhead
        exact absurd hhead (by simp)
      exact List.dropWhile_eq_nil_iff.mp hnil
  unfold Text.blank Text.trim
  rw [hchars, String.ofList_eq_empty_iff]

/-- The first route that does not decline decides what the routes say together. -/
theorem routeAmong_eq (routes : List Route) (probe : Probe) :
    ExtractorTable.routeAmong probe routes
      = match routes.find? fun route => route.test probe != .returned false with
        | none => .returned none
        | some route =>
          match route.test probe with
          | .panicked note => .panicked note
          | .returned _ => .returned (some route.extractor) := by
  induction routes with
  | nil => rfl
  | cons route routes ih =>
      unfold ExtractorTable.routeAmong
      cases ht : route.test probe with
      | panicked note =>
          rw [List.find?_cons_of_pos (by rw [ht]; rfl)]
          simp only [ht]
      | returned accepts =>
          cases accepts with
          | true =>
              rw [List.find?_cons_of_pos (by rw [ht]; rfl)]
              simp only [ht]
          | false =>
              rw [List.find?_cons_of_neg (by rw [ht]; decide)]
              exact ih

namespace Assessment

theorem ofAnswer_eq (detected : String) (x : Extractor) (content : Bytes) :
    ofAnswer detected x.name (x.extract content)
      = ofFinding (Finding.ofExtraction detected x content) := by
  unfold ofAnswer Finding.ofExtraction
  cases x.extract content with
  | panicked note => rfl
  | returned answer =>
      cases answer with
      | error e => rfl
      | ok text =>
          unfold ofFinding Worker.judge
          dsimp only
          by_cases hb : Text.blank text = true
          · rw [if_pos ((blank_iff_trim text).mp hb), if_pos hb]
            rfl
          · rw [if_neg (fun ht => hb ((blank_iff_trim text).mpr ht)), if_neg hb]

/-- **A worker that opens a file and asks an extractor finds what reading it alone says.** -/
theorem ofFile_eq (table : ExtractorTable) (fileName : String) (declared : Option String)
    (file : FileState) :
    ofFile table fileName declared file
      = ofFinding (Examination.of table fileName declared file).finding := by
  cases file with
  | removed => rfl
  | unreadable detail => rfl
  | readable content =>
      unfold ofFile Examination.of ofRoutes ExtractorTable.route
      dsimp only
      rw [routeAmong_eq]
      cases table.routes.find? _ with
      | none => rfl
      | some route =>
          dsimp only
          cases route.test _ with
          | panicked note => rfl
          | returned _ => exact ofAnswer_eq _ _ _

/-- Either there is a text, or there is a reason why not. -/
theorem ofFinding_settled (finding : Finding) :
    (ofFinding finding).content.isSome = (ofFinding finding).reason.isNone := by
  unfold ofFinding
  cases Worker.judge finding <;> rfl

end Assessment
end Intake
