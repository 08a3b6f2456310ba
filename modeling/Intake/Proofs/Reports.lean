import Intake.Proofs.Assessments
import Intake.Proofs.Tickets

/-!
# What a session reports of its files

The report of a session has an entry for each file, in the order of submission, and it says of
each what reading that file alone says. Nothing else has a part in it: not the other files, not
when or whether events were delivered, not the deadline.

This rests on two things. A worker's steps depend on its task, its file and the extractors, and
no more. And until a worker opens its file nobody else touches it: the spools of a batch are
different files, and a worker removes its own alone.
-/

namespace Intake

/-! ## Files and spools -/

namespace Spools

theorem state_remove_ne {s : Spools} {k f : Spool} (hk : k ≠ f) :
    (s.remove k).state f = s.state f := by
  unfold remove state
  rw [List.getElem?_set_ne hk]

end Spools

/-- What a task is about. -/
structure Source where
  fileName : String
  declared : Option String
  spool : Spool
  deriving DecidableEq, Repr

/-- What a submitted file is about. -/
def Submission.source (f : Submission) : Source :=
  ⟨f.fileName, f.declared, f.spool⟩

/-- What a task with its spool is about. -/
def FileTask.source (t : FileTask) (spool : Spool) : Source :=
  ⟨t.fileName, t.declared, spool⟩

/-! ## One worker -/

namespace WorkerPhase

/-- Holds of a worker that has not opened its file. -/
def isEarly : WorkerPhase → Bool
  | ready | opening => true
  | _ => false

end WorkerPhase

/-- A task records what was said of its file. -/
structure FileTask.Records (t : FileTask) (a : Assessment) : Prop where
  detected : t.detected = a.detected
  outcome : t.outcome = some a.outcome
  content : t.content = a.content
  reason : t.reason = a.reason

namespace Worker

/-- What a worker is about. -/
def source (w : Worker) : Source :=
  w.task.source w.spool

/-- The examination of a worker's file, as the file was found. -/
def exam (table : ExtractorTable) (files : Spool → FileState) (w : Worker) : Examination :=
  .of table w.task.fileName w.task.declared (files w.spool)

/-- **A worker is on its way to what reading its file alone says.** -/
def Faithful (table : ExtractorTable) (files : Spool → FileState) (w : Worker) : Prop :=
  match w.phase with
  | .ready | .opening => w.task.content = none
  | .reading detected x content =>
    w.task.content = none ∧ w.exam table files = .ask detected x content
  | .judging finding => w.task.content = none ∧ (w.exam table files).finding = finding
  | .closing | .leaving | .finished =>
    w.task.Records (.ofFinding (w.exam table files).finding)
  | .lost => True

variable {table : ExtractorTable} {gates : List String} {files : Spool → FileState}
  {spools : Spools} {w : Worker} {s : WorkerStep}

/-- What was found is recorded. -/
theorem records_conclude {t : FileTask} (h : t.state = .processingStarted)
    (hr : t.reason = none) (hc : t.content = none) (finding : Finding) :
    (conclude t finding).1.Records (.ofFinding finding) := by
  unfold Assessment.ofFinding
  rcases conclude_eq h finding with ⟨text, hj, heq⟩ | ⟨f, hj, heq⟩
  · rw [hj, heq]
    exact ⟨rfl, rfl, rfl, hr⟩
  · rw [hj, heq]
    exact ⟨rfl, rfl, hc, rfl⟩

/-- What a step of a worker does to the files: none is touched but its own, and that one only
when the worker is done reading it. -/
structure Handles (w : Worker) (spools : Spools) (s : WorkerStep) : Prop where
  others : ∀ f, f ≠ w.spool → s.spools.state f = spools.state f
  early : s.worker.phase.isEarly = true → w.phase.isEarly = true ∧ s.spools = spools

/-- **A step brings a worker nearer to what reading its file alone says.** -/
theorem step?_faithful (hw : w.Consistent) (hf : w.Faithful table files)
    (hopen : w.phase.isEarly = true → spools.state w.spool = files w.spool)
    (hs : w.step? table gates spools = some s) :
    s.worker.Faithful table files ∧ w.Handles spools s ∧ s.worker.source = w.source := by
  have hsame : ∀ t : FileTask, (t.fileName = w.task.fileName) → (t.declared = w.task.declared) →
      t.source w.spool = w.source := by
    intro t hn hd
    unfold source FileTask.source
    rw [hn, hd]
  unfold Consistent at hw
  unfold Faithful at hf
  cases hp : w.phase with
  | ready =>
      rw [hp] at hw hf
      have hallows : w.task.state.allows .processingStarted = true := by rw [hw.1]; rfl
      simp only [step?, hp, apply_transition hallows] at hs
      cases hs
      exact ⟨hf, ⟨fun _ _ => rfl, fun _ => ⟨by rw [hp]; rfl, rfl⟩⟩, rfl⟩
  | opening =>
      rw [hp] at hf
      have hfile := hopen (by rw [hp]; rfl)
      simp only [step?, hp, hfile] at hs
      split at hs
      · rename_i finding hx
        cases hs
        refine ⟨⟨hf, ?_⟩, ⟨fun f hne => Spools.state_remove_ne hne.symm, ?_⟩, rfl⟩
        · show (Examination.of table w.task.fileName w.task.declared (files w.spool)).finding = _
          rw [hx]
          rfl
        · exact fun he => absurd he (by simp [WorkerPhase.isEarly])
      · rename_i detected x content hx
        cases hs
        exact ⟨⟨hf, hx⟩, ⟨fun _ _ => rfl, fun _ => ⟨by rw [hp]; rfl, rfl⟩⟩, rfl⟩
  | reading detected x content =>
      rw [hp] at hf
      simp only [step?, hp] at hs
      split at hs
      · cases hs
        refine ⟨⟨hf.1, ?_⟩, ⟨fun f hne => Spools.state_remove_ne hne.symm, ?_⟩, rfl⟩
        · show (w.exam table files).finding = _
          rw [hf.2]
          rfl
        · exact fun he => absurd he (by simp [WorkerPhase.isEarly])
      · exact absurd hs (by simp)
  | judging finding =>
      rw [hp] at hw hf
      have hrec := records_conclude hw.1 hw.2 hf.1 finding
      have hsource : (conclude w.task finding).1.fileName = w.task.fileName
          ∧ (conclude w.task finding).1.declared = w.task.declared := by
        rcases conclude_eq hw.1 finding with ⟨text, _, heq⟩ | ⟨f, _, heq⟩ <;> rw [heq] <;>
          exact ⟨rfl, rfl⟩
      simp only [step?, hp] at hs
      cases hs
      refine ⟨?_, ⟨fun _ _ => rfl, fun he => absurd he (by simp [WorkerPhase.isEarly])⟩,
        hsame _ hsource.1 hsource.2⟩
      show FileTask.Records _ (.ofFinding (Examination.of table _ _ (files w.spool)).finding)
      rw [hsource.1, hsource.2]
      have hexam : (Examination.of table w.task.fileName w.task.declared
          (files w.spool)).finding = finding := hf.2
      rw [hexam]
      exact hrec
  | closing =>
      rw [hp] at hw hf
      have hallows : w.task.state.allows .completed = true := by
        rcases hw.2 with hstate | hstate <;> rw [hstate] <;> rfl
      simp only [step?, hp, apply_transition hallows] at hs
      cases hs
      exact ⟨⟨hf.detected, hf.outcome, hf.content, hf.reason⟩,
        ⟨fun _ _ => rfl, fun he => absurd he (by simp [WorkerPhase.isEarly])⟩, rfl⟩
  | leaving =>
      rw [hp] at hf
      simp only [step?, hp] at hs
      cases hs
      exact ⟨hf, ⟨fun _ _ => rfl, fun he => absurd he (by simp [WorkerPhase.isEarly])⟩, rfl⟩
  | finished =>
      simp only [step?, hp] at hs
      exact absurd hs (by simp)
  | lost =>
      simp only [step?, hp] at hs
      exact absurd hs (by simp)

/-- **A finished worker reports what reading its file alone says.** -/
theorem report_faithful (hw : w.Consistent) (hf : w.Faithful table files)
    (ho : w.phase.isOver = true) :
    w.report = (Assessment.ofFile table w.task.fileName w.task.declared (files w.spool)).report
      w.task.id w.task.fileName w.task.declared := by
  have hreport := (told_finished hw ho).2.1
  have hp := finished_of_over hw ho
  unfold Consistent at hw
  unfold Faithful at hf
  rw [hp] at hw hf
  rw [hreport, Assessment.ofFile_eq]
  unfold FileTask.report Assessment.report
  rw [hf.detected, hf.outcome, hf.content, hf.reason, hw.2]
  rfl

end Worker

/-! ## All workers of a session -/

namespace Run

/-- What the run is about, in the order of submission. A file is a worker's, or its task waits
for one, or it has no task yet. -/
def sources (r : Run) : List Source :=
  r.workers.map Worker.source ++ r.queued.map (fun q => q.1.source q.2)
    ++ r.files.map Submission.source

/-- The files that nobody has opened. -/
def unopened (r : Run) : List Spool :=
  (r.workers.filter (·.phase.isEarly)).map Worker.spool ++ r.queued.map Prod.snd
    ++ r.files.map Submission.spool

theorem sources_spools (r : Run) : r.sources.map Source.spool
    = r.workers.map Worker.spool ++ r.queued.map Prod.snd ++ r.files.map Submission.spool := by
  unfold sources
  rw [List.map_append, List.map_append, List.map_map, List.map_map, List.map_map]
  rfl

theorem unopened_sub {r : Run} {f : Spool} (hf : f ∈ r.unopened) :
    f ∈ r.sources.map Source.spool := by
  rw [sources_spools]
  have hsub : (r.workers.filter (·.phase.isEarly)).map Worker.spool ⊆ r.workers.map Worker.spool :=
    List.map_subset _ (List.filter_subset_self _)
  rcases List.mem_append.mp hf with hf | hf
  · rcases List.mem_append.mp hf with hf | hf
    · exact List.mem_append_left _ (List.mem_append_left _ (hsub hf))
    · exact List.mem_append_left _ (List.mem_append_right _ hf)
  · exact List.mem_append_right _ hf

/-- Where all spools are different, those that nobody has opened are still so after a worker's
step, and are other files than the worker's, unless it has only announced its start. -/
theorem unopened_worked {r r' : Run} {i : Nat} {w : Worker} {s : WorkerStep} {spools : Spools}
    (hn : (r.sources.map Source.spool).Nodup) (hi : r.workers[i]? = some w)
    (hh : w.Handles spools s) (hsource : s.worker.source = w.source)
    (hw : r'.workers = r.workers.set i s.worker) (hq : r'.queued = r.queued)
    (hf : r'.files = r.files) {f : Spool} (hm : f ∈ r'.unopened) :
    f ∈ r.unopened ∧ s.spools.state f = spools.state f := by
  have hmem : w ∈ r.workers := List.mem_of_getElem? hi
  rw [sources_spools, List.append_assoc, List.nodup_append] at hn
  obtain ⟨hworkers, _, hapart⟩ := hn
  have hrest : f ∈ r.queued.map Prod.snd ++ r.files.map Submission.spool →
      f ∈ r.unopened ∧ s.spools.state f = spools.state f := by
    intro hm
    refine ⟨?_, hh.others f ?_⟩
    · unfold unopened
      rw [List.append_assoc]
      exact List.mem_append_right _ hm
    · exact (hapart w.spool (List.mem_map_of_mem hmem) f hm).symm
  unfold unopened at hm
  rw [hq, hf, List.append_assoc] at hm
  rcases List.mem_append.mp hm with hm | hm
  · obtain ⟨v, hv, hvf⟩ := List.mem_map.mp hm
    obtain ⟨hv, hearly⟩ := List.mem_filter.mp hv
    rw [hw] at hv
    obtain ⟨j, hj⟩ := List.mem_iff_getElem?.mp hv
    by_cases hij : i = j
    · -- the worker itself, which has not opened its file
      subst hij
      rw [List.getElem?_set_self (List.getElem?_eq_some_iff.mp hi).1] at hj
      cases hj
      obtain ⟨hwe, hsame⟩ := hh.early hearly
      have hspool : w.spool = f := by
        rw [← hvf]
        exact (congrArg Source.spool hsource).symm
      refine ⟨?_, by rw [hsame]⟩
      refine List.mem_append_left _ (List.mem_append_left _ ?_)
      exact List.mem_map.mpr ⟨w, List.mem_filter.mpr ⟨hmem, hwe⟩, hspool⟩
    · -- another worker, which has another file
      rw [List.getElem?_set_ne hij] at hj
      have hv' : v ∈ r.workers := List.mem_of_getElem? hj
      refine ⟨?_, hh.others f ?_⟩
      · refine List.mem_append_left _ (List.mem_append_left _ ?_)
        exact List.mem_map.mpr ⟨v, List.mem_filter.mpr ⟨hv', hearly⟩, hvf⟩
      · intro hfw
        have hiw : (r.workers.map Worker.spool)[i]? = some f := by
          rw [List.getElem?_map, hi, hfw]
          rfl
        have hjv : (r.workers.map Worker.spool)[j]? = some f := by
          rw [List.getElem?_map, hj, ← hvf]
          rfl
        have hlt := (List.getElem?_eq_some_iff.mp hiw).1
        exact hij ((List.getElem?_inj hlt hworkers).mp (hiw.trans hjv.symm))
  · exact hrest hm

end Run

/-- **The invariant of a run and its files.** -/
structure Examined (p : Prepared) (files : Spool → FileState) (r : Run) (spools : Spools) :
    Prop where
  table : r.table = p.table
  sources : r.sources = p.files.map Submission.source
  /-- A file is as it was when the session was prepared, until a worker opens it. -/
  untouched : ∀ f ∈ r.unopened, spools.state f = files f
  fresh : ∀ q ∈ r.queued, q.1.content = none
  faithful : ∀ w ∈ r.workers, w.Faithful p.table files

namespace Examined

variable {p : Prepared} {files : Spool → FileState} {r r' : Run} {spools spools' : Spools}
  {log : List Event}

theorem start {q : Prepared} (ht : q.table = p.table) (hf : q.files = p.files)
    (hs : ∀ f ∈ p.files, spools.state f.spool = files f.spool) (now : Nat) :
    Examined p files (Run.start q now) spools where
  table := ht
  sources := congrArg (List.map Submission.source) hf
  untouched := by
    intro f hm
    have hm : f ∈ q.files.map Submission.spool := hm
    rw [hf] at hm
    obtain ⟨g, hg, heq⟩ := List.mem_map.mp hm
    exact heq ▸ hs g hg
  fresh := fun q hq => absurd hq (by simp [Run.start])
  faithful := fun w hw => absurd hw (by simp [Run.start])

/-- Only these parts of a run are looked at. -/
theorem congr (h : Examined p files r spools) (ht : r'.table = r.table)
    (hw : r'.workers = r.workers) (hq : r'.queued = r.queued) (hf : r'.files = r.files) :
    Examined p files r' spools := by
  have hsources : r'.sources = r.sources := by
    unfold Run.sources
    rw [hw, hq, hf]
  have hunopened : r'.unopened = r.unopened := by
    unfold Run.unopened
    rw [hw, hq, hf]
  exact {
    table := ht.trans h.table
    sources := hsources.trans h.sources
    untouched := by rw [hunopened]; exact h.untouched
    fresh := by rw [hq]; exact h.fresh
    faithful := by rw [hw]; exact h.faithful }

/-- Others leave the session's files alone. -/
theorem spared (h : Examined p files r spools)
    (hs : ∀ f ∈ p.files, spools'.state f.spool = spools.state f.spool) :
    Examined p files r spools' where
  table := h.table
  sources := h.sources
  untouched := by
    intro f hf
    have hm := Run.unopened_sub hf
    rw [h.sources, List.map_map] at hm
    obtain ⟨g, hg, heq⟩ := List.mem_map.mp hm
    have hsame : spools'.state f = spools.state f := heq ▸ hs g hg
    rw [hsame]
    exact h.untouched f hf
  fresh := h.fresh
  faithful := h.faithful

theorem queued {f : Submission} {rest : List Submission} {hub : Hub}
    (h : Examined p files r spools) (hf : r.files = f :: rest) (ht : r'.table = r.table)
    (hw : r'.workers = r.workers) (hq : r'.queued = r.queued ++ [(r.taskOf hub f, f.spool)])
    (hf' : r'.files = rest) : Examined p files r' spools := by
  have hsources : r'.sources = r.sources := by
    unfold Run.sources
    rw [hw, hq, hf', hf, List.map_append, List.map_cons, ← List.append_assoc,
      List.append_assoc (_ ++ _)]
    rfl
  have hunopened : r'.unopened = r.unopened := by
    unfold Run.unopened
    rw [hw, hq, hf', hf, List.map_append, List.map_cons, ← List.append_assoc,
      List.append_assoc (_ ++ _)]
    rfl
  refine {
    table := ht.trans h.table
    sources := hsources.trans h.sources
    untouched := by rw [hunopened]; exact h.untouched
    fresh := ?_
    faithful := by rw [hw]; exact h.faithful }
  intro q hm
  rw [hq] at hm
  rcases List.mem_append.mp hm with hold | hnew
  · exact h.fresh q hold
  · rw [List.mem_singleton.mp hnew]
    rfl

theorem spawned {task : FileTask} {spool : Spool} {rest : List (FileTask × Spool)}
    (h : Examined p files r spools) (hq : r.queued = (task, spool) :: rest)
    (ht : r'.table = r.table) (hw : r'.workers = r.workers ++ [({ task, spool } : Worker)])
    (hq' : r'.queued = rest) (hf : r'.files = r.files) : Examined p files r' spools := by
  -- the file moves from the front of the queue to the last worker: the order stays
  have hsources : r'.sources = r.sources := by
    unfold Run.sources
    rw [hw, hq, hq', hf, List.map_append, List.map_cons, List.append_assoc (r.workers.map _)]
    rfl
  have hunopened : r'.unopened = r.unopened := by
    unfold Run.unopened
    rw [hw, hq, hq', hf, List.filter_append, List.map_append, List.map_cons,
      List.append_assoc (List.map _ (List.filter _ r.workers))]
    rfl
  refine {
    table := ht.trans h.table
    sources := hsources.trans h.sources
    untouched := by rw [hunopened]; exact h.untouched
    fresh := ?_
    faithful := ?_ }
  · intro q hm
    rw [hq'] at hm
    exact h.fresh q (by rw [hq]; exact List.mem_cons_of_mem _ hm)
  · intro w hm
    rw [hw] at hm
    rcases List.mem_append.mp hm with hold | hnew
    · exact h.faithful w hold
    · rw [List.mem_singleton.mp hnew]
      exact h.fresh (task, spool) (by rw [hq]; exact List.mem_cons_self)

/-- **A worker goes on with its own file, and leaves the others' alone.** -/
theorem worked {hub : Hub} {i : Nat} {w : Worker} {s : WorkerStep}
    (hn : (p.files.map Submission.spool).Nodup) (h : Examined p files r hub.spools)
    (hl : Logged p r log) (hi : r.workers[i]? = some w)
    (hs : w.step? r.table hub.gates hub.spools = some s) (ht : r'.table = r.table)
    (hw : r'.workers = r.workers.set i s.worker) (hq : r'.queued = r.queued)
    (hf : r'.files = r.files) : Examined p files r' s.spools := by
  have hm : w ∈ r.workers := List.mem_of_getElem? hi
  have hopen : w.phase.isEarly = true → hub.spools.state w.spool = files w.spool := by
    intro he
    refine h.untouched _ (List.mem_append_left _ (List.mem_append_left _ ?_))
    exact List.mem_map_of_mem (List.mem_filter.mpr ⟨hm, he⟩)
  rw [h.table] at hs
  obtain ⟨hfaithful, hhandles, hsource⟩ :=
    Worker.step?_faithful (hl.consistent w hm) (h.faithful w hm) hopen hs
  have hnodup : (r.sources.map Source.spool).Nodup := by
    rw [h.sources, List.map_map]
    exact hn
  refine {
    table := ht.trans h.table
    sources := ?_
    untouched := ?_
    fresh := by rw [hq]; exact h.fresh
    faithful := ?_ }
  · rw [← h.sources]
    unfold Run.sources
    rw [hw, hq, hf, List.map_set, hsource, set_self (by rw [List.getElem?_map, hi]; rfl)]
  · intro f hf'
    obtain ⟨hold, hsame⟩ := Run.unopened_worked hnodup hi hhandles hsource hw hq hf hf'
    rw [hsame]
    exact h.untouched f hold
  · intro v hv
    rw [hw] at hv
    rcases List.mem_or_eq_of_mem_set hv with hold | hnew
    · exact h.faithful v hold
    · rw [hnew]
      exact hfaithful

/-- **Preserved by every step.** -/
theorem step {hub hub' : Hub} {a : Run.Action} {handed : List Event}
    {decides : List (Event × DeliveryOutcome)} (hn : (p.files.map Submission.spool).Nodup)
    (h : Examined p files r hub.spools) (hl : Logged p r log)
    (ha : r.Acted hub a handed decides hub' r') : Examined p files r' hub'.spools := by
  cases ha with
  | queued _ hf => exact h.queued hf rfl rfl rfl rfl
  | spawned _ hq => exact h.spawned hq rfl rfl rfl rfl
  | @worked i w s hi hs =>
      obtain ⟨_, _, hf, hq, hw⟩ := Logged.applyStep_fields r hub i s
      have ht : (r.applyStep hub i s).2.table = r.table := by
        unfold Run.applyStep
        cases s.event <;> cases s.leaves <;> rfl
      exact h.worked hn hl hi hs ht hw hq hf
  | _ => exact h.congr rfl rfl rfl rfl

theorem abandon (h : Examined p files r spools) (hub : Hub) :
    Examined p files (r.abandon hub).2 spools := by
  unfold Run.abandon
  split
  · exact h.congr rfl rfl rfl rfl
  · exact h

end Examined

/-! ## The reports in the course of a session -/

/-- The report on a submitted file that is read alone, as it is found in some spools. -/
def Submission.reportAlone (f : Submission) (table : ExtractorTable) (spools : Spools)
    (id : String) : TaskReport :=
  (Assessment.ofFile table f.fileName f.declared (spools.state f.spool)).report id f.fileName
    f.declared

namespace Course

/-- Holds of the moves that leave a session's files and extractors to it. -/
def Leaves (p : Prepared) (c : Course) : Move → Prop
  | .outside spools _ _ => ∀ f ∈ p.files, spools.state f.spool = c.hub.spools.state f.spool
  | .behave table => table = p.table
  | _ => True

/-- Nobody touches the files and the extractors of a session during some moves. -/
def Undisturbed (p : Prepared) : Course → List Move → Prop
  | _, [] => True
  | c, m :: ms => c.Leaves p m ∧ (c.move m).Undisturbed p ms

/-- Holds of the moves that cannot touch the files or the extractors of a session. -/
def Move.isHarmless : Move → Bool
  | outside _ _ _ | behave _ => false
  | _ => true

theorem undisturbed_of_harmless (p : Prepared) (c : Course) {ms : List Move}
    (h : ∀ m ∈ ms, m.isHarmless = true) : c.Undisturbed p ms := by
  induction ms generalizing c with
  | nil => trivial
  | cons m ms ih =>
      refine ⟨?_, ih _ fun m' hm' => h m' (List.mem_cons_of_mem _ hm')⟩
      have hm := h m List.mem_cons_self
      cases m with
      | outside spools gates serial => exact absurd hm (by simp [Move.isHarmless])
      | behave table => exact absurd hm (by simp [Move.isHarmless])
      | _ => trivial

/-- The invariant of a course, before and after the session begins to run. -/
def Examines (p : Prepared) (files : Spool → FileState) (c : Course) : Prop :=
  match c.stage with
  | .prepared q => q.table = p.table ∧ q.files = p.files
    ∧ ∀ f ∈ p.files, c.hub.spools.state f.spool = files f.spool
  | .running r => Examined p files r c.hub.spools

variable {p : Prepared} {c : Course} {files : Spool → FileState}

theorem Examines.prepared (h : c.Examines p files) {q : Prepared} (hs : c.stage = .prepared q) :
    q.table = p.table ∧ q.files = p.files
      ∧ ∀ f ∈ p.files, c.hub.spools.state f.spool = files f.spool := by
  unfold Examines at h
  rw [hs] at h
  exact h

theorem Examines.running (h : c.Examines p files) {r : Run} (hs : c.stage = .running r) :
    Examined p files r c.hub.spools := by
  unfold Examines at h
  rw [hs] at h
  exact h

/-- What others do to the hub does not concern the session, if they leave its files alone. -/
theorem Examines.around (h : c.Examines p files) {hub : Hub}
    (hs : ∀ f ∈ p.files, hub.spools.state f.spool = c.hub.spools.state f.spool) (o : Outlet) :
    Examines p files { c with hub, outlet := o } := by
  unfold Examines at h ⊢
  dsimp only
  split at h
  · rename_i q hq
    exact ⟨h.1, h.2.1, fun f hf => (hs f hf).trans (h.2.2 f hf)⟩
  · exact h.spared hs

/-- **Preserved by every move that leaves the session's files and extractors alone.** -/
theorem examines_move (hn : (p.files.map Submission.spool).Nodup) (hl : c.Logs p)
    (h : c.Examines p files) {m : Move} (hm : c.Leaves p m) : (c.move m).Examines p files := by
  cases m with
  | takeMirror =>
      dsimp only [move]
      split
      · rename_i q hs
        have hq := h.prepared hs
        exact hq
      · exact h
  | start =>
      dsimp only [move]
      split
      · rename_i q hs
        obtain ⟨ht, hf, hfiles⟩ := h.prepared hs
        exact Examined.start ht hf hfiles _
      · exact h
  | act a =>
      dsimp only [move]
      split
      · exact h
      · rename_i r hs
        split
        · exact h
        · rename_i ha
          exact (h.running hs).step hn (hl.running hs) (Run.act_acted ha)
  | abandon =>
      dsimp only [move]
      split
      · exact h
      · rename_i r hs
        have hspools : (r.abandon c.hub).1.spools = c.hub.spools := by
          unfold Run.abandon
          split <;> rfl
        show Examined p files _ (r.abandon c.hub).1.spools
        rw [hspools]
        exact (h.running hs).abandon _
  | popMirror =>
      dsimp only [move]
      split
      · exact h
      · rename_i r hs
        split
        · exact (h.running hs).congr rfl rfl rfl rfl
        · exact h
  | abandonMirror =>
      dsimp only [move]
      split
      · rename_i q hs
        have hq := h.prepared hs
        exact hq
      · rename_i r hs
        exact (h.running hs).congr rfl rfl rfl rfl
  | reader m => exact h.around (fun _ _ => rfl) _
  | wait ms => exact h.around (fun _ _ => rfl) _
  | other call =>
      dsimp only [move]
      split
      · exact h.around (fun _ _ => rfl) _
      · exact h
  | renew => exact h.around (fun _ _ => rfl) _
  | outside spools gates serial =>
      have hspools : ∀ f ∈ p.files,
          ({ c.hub with spools, gates, serial } : Hub).spools.state f.spool
            = c.hub.spools.state f.spool := hm
      exact h.around hspools c.outlet
  | behave table =>
      have ht : table = p.table := hm
      subst ht
      dsimp only [move]
      split
      · rename_i q hs
        exact ⟨rfl, (h.prepared hs).2⟩
      · rename_i r hs
        exact (h.running hs).congr (h.running hs).table.symm rfl rfl rfl

theorem examines_play (hn : (p.files.map Submission.spool).Nodup) {ms : List Move}
    (hu : c.Undisturbed p ms) (hl : c.Logs p) (h : c.Examines p files) :
    (c.play ms).Examines p files := by
  induction ms generalizing c with
  | nil => exact h
  | cons m ms ih =>
      exact ih hu.2 (logs_moved hl (c.move_moved m)) (examines_move hn hl h hu.1)

/-- Two lists that agree in one respect are paired off by it. -/
theorem forall₂_of_map_eq {α β γ : Type} {f : α → γ} {g : β → γ} {R : β → α → Prop}
    {l : List α} {l' : List β} (h : l.map f = l'.map g)
    (hR : ∀ a ∈ l, ∀ b, f a = g b → R b a) : List.Forall₂ R l' l := by
  induction l generalizing l' with
  | nil =>
      rw [List.map_eq_nil_iff.mp h.symm]
      exact .nil
  | cons a l ih =>
      obtain ⟨b, rest, rfl, hb, hrest⟩ := List.map_eq_cons_iff.mp h.symm
      exact .cons (hR a List.mem_cons_self b hb.symm)
        (ih hrest.symm fun a' ha' => hR a' (List.mem_cons_of_mem _ ha'))

/-- **What a session that has returned reports of its files.** -/
structure Reported (p : Prepared) (spools : Spools) (report : SessionReport) : Prop where
  completions : report.completions = p.files.length
  /-- There is an entry for each file, in the order of submission, and apart from the task's id
  it is the report on the file alone. -/
  tasks : List.Forall₂ (fun f t => t = Submission.reportAlone f p.table spools t.id)
    p.files report.tasks
  /-- Every task is completed, with a text or with a reason why there is none. -/
  settled : ∀ t ∈ report.tasks, t.state = .completed ∧ t.content.isSome = t.reason.isNone

/-- **A session reports of each file what reading it alone says**, whatever becomes of the other
files, whoever reads the events or does not, and whether or not the deadline passes. -/
theorem session_reports {hub : Hub} {ms : List Move} {r : Run}
    (hn : (p.files.map Submission.spool).Nodup) (hu : (of p hub).Undisturbed p ms)
    (hs : ((of p hub).play ms).stage = .running r) (hp : r.phase = .returned) :
    Reported p hub.spools r.report := by
  have hrank : r.phase.rank = 9 := by rw [hp]; rfl
  have hl := (books_play p hub ms).1.running hs
  have hx := (examines_play hn hu (logs_of p hub) ⟨rfl, rfl, fun _ _ => rfl⟩).running hs
  have ht := (ticketed_play hs).passed (by omega)
  -- every file has its worker
  have hsources : r.workers.map Worker.source = p.files.map Submission.source := by
    rw [← hx.sources]
    unfold Run.sources
    rw [hl.allSpawned (by omega), hl.allQueued (by omega)]
    simp
  have hreport : ∀ w ∈ r.workers, w.report
      = (Assessment.ofFile p.table w.task.fileName w.task.declared
          (hub.spools.state w.spool)).report w.task.id w.task.fileName w.task.declared :=
    fun w hw => Worker.report_faithful (hl.consistent w hw) (hx.faithful w hw)
      (hl.allOver (by omega) w hw)
  refine ⟨?_, ?_, ?_⟩
  · show r.completions = _
    rw [ht.2]
    simpa using congrArg List.length hsources
  · show List.Forall₂ _ p.files (r.workers.map Worker.report)
    rw [List.forall₂_map_right_iff]
    refine forall₂_of_map_eq hsources ?_
    intro w hw f hwf
    obtain ⟨hname, hrest⟩ := Source.mk.inj hwf
    rw [hreport w hw, hname, hrest.1, hrest.2]
    rfl
  · intro t htm
    obtain ⟨w, hw, heq⟩ := List.mem_map.mp htm
    rw [← heq, hreport w hw]
    refine ⟨rfl, ?_⟩
    rw [Assessment.ofFile_eq]
    exact Assessment.ofFinding_settled _

/-- A session of three files, of which one has a text, one cannot be read and one is missing.
Nobody reads its events, and they are dropped at the deadline. -/
theorem session_reports_three_files :
    let cards : Extractor := { name := "cards", extract := fun _ => .returned (.ok "hello") }
    let p : Prepared := {
      id := "s"
      handle := 0
      files := [
        { fileName := "a.txt", declared := none, size := 1, spool := 0 },
        { fileName := "b.txt", declared := none, size := 1, spool := 1 },
        { fileName := "c.txt", declared := none, size := 1, spool := 2 }]
      table := { routes := [.when (fun _ => true) cards] }
      settings := {} }
    let hub : Hub := {
      registry := ({} : Registry).opened "s"
      spools := { files := [.readable [104], .unreadable "bad disk", .removed] } }
    let ms : List Move := List.flatten [[.start], List.replicate 9 (.act .run),
      List.replicate 6 (.act (.worker 0)), List.replicate 5 (.act (.worker 1)),
      List.replicate 5 (.act (.worker 2)), List.replicate 3 (.act .run), [.wait 1000000],
      List.replicate 28 (.act .relay), [.act .run, .act .run, .act .relay, .act .run]]
    (p.files.map Submission.spool).Nodup ∧ (of p hub).Undisturbed p ms
      ∧ ∃ r, ((of p hub).play ms).stage = .running r ∧ r.phase = .returned
        ∧ r.report.tasks.map TaskReport.reason = [none,
            some "cannot read uploaded file: bad disk",
            some "cannot open uploaded file: no such file"]
        ∧ Reported p hub.spools r.report := by
  intro cards p hub ms
  have hn : (p.files.map Submission.spool).Nodup := by decide
  have hu : (of p hub).Undisturbed p ms := undisturbed_of_harmless p _ (by decide)
  have hrun : ((of p hub).play ms).run?.map (fun r =>
      (r.phase, r.report.tasks.map TaskReport.reason)) = some (.returned, [none,
        some "cannot read uploaded file: bad disk",
        some "cannot open uploaded file: no such file"]) := by decide +kernel
  obtain ⟨r, hr, heq⟩ := Option.map_eq_some_iff.mp hrun
  obtain ⟨hp, hreasons⟩ := Prod.mk.inj heq
  have hs := stage_of_run? hr
  exact ⟨hn, hu, r, hs, hp, hreasons, session_reports hn hu hs hp⟩

end Course
end Intake
