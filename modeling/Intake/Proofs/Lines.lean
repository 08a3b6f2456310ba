import Intake.Worker

/-!
# What is told of one file

Of each file of a session the same four things are told: that it was queued, that its
processing started, how that went, and that it is over. The first is told by the run, the
other three by the file's worker. `Worker.told` is what a worker in some phase has told so far,
read off its task alone. A step of the worker adds exactly the event that it hands over.
-/

namespace Intake

/-- What there is to be told of one file. -/
structure Line where
  /-- The id of its task. -/
  uuid : String
  fileName : String
  /-- The reason of the failure, if it failed. -/
  verdict : Option String
  deriving DecidableEq, Repr

namespace Line

/-- The event that it was queued. -/
def queued (guid : String) (l : Line) : Event :=
  Event.ofTask guid l.uuid .fileQueued l.fileName

/-- The event that says how it went. -/
def judged (guid : String) (l : Line) : Event :=
  match l.verdict with
  | none => Event.ofTask guid l.uuid .fileProcessed l.fileName
  | some reason => (Event.ofTask guid l.uuid .fileProcessingError l.fileName).because reason

/-- The three events of its worker. -/
def triple (guid : String) (l : Line) : List Event :=
  [Event.ofTask guid l.uuid .fileProcessingStarted l.fileName, l.judged guid,
    Event.ofTask guid l.uuid .fileCompleted l.fileName]

/-- They are all of the session, and none is its last. -/
theorem of_mem_triple {guid : String} {l : Line} {e : Event} (h : e ∈ l.triple guid) :
    e.guid = guid ∧ e.state.isTerminal = false := by
  unfold triple judged at h
  cases hv : l.verdict with
  | none =>
      rw [hv] at h
      simp only [List.mem_cons, List.not_mem_nil, or_false] at h
      rcases h with rfl | rfl | rfl <;> exact ⟨rfl, rfl⟩
  | some reason =>
      rw [hv] at h
      simp only [List.mem_cons, List.not_mem_nil, or_false] at h
      rcases h with rfl | rfl | rfl <;> exact ⟨rfl, rfl⟩

end Line

/-- How many events a worker has told when its task is in a state. -/
def TaskState.rank : TaskState → Nat
  | queued => 0
  | processingStarted => 1
  | processed | processingError => 2
  | completed => 3

/-- Holds of a task that went well, or failed for a reason. -/
def FileTask.IsJudged (t : FileTask) : Prop :=
  (t.outcome = some .success ∧ t.reason = none)
    ∨ ∃ f : TaskFailure, t.outcome = some f.outcome ∧ t.reason = some f.message

/-- What is to be told of a task's file, as far as it is known. -/
def FileTask.line (t : FileTask) : Line where
  uuid := t.id
  fileName := t.fileName
  verdict := t.reason

namespace Worker

/-- What a worker has told so far. -/
def told (w : Worker) : List Event :=
  (w.task.line.triple w.task.session).take w.task.state.rank

/-- What a worker's phase says of its task. A worker that was taken down is not considered. -/
def Consistent (w : Worker) : Prop :=
  match w.phase with
  | .ready => w.task.state = .queued ∧ w.task.reason = none
  | .opening | .reading _ _ _ | .judging _ =>
    w.task.state = .processingStarted ∧ w.task.reason = none
  | .closing =>
    w.task.IsJudged ∧ (w.task.state = .processed ∨ w.task.state = .processingError)
  | .leaving | .finished => w.task.IsJudged ∧ w.task.state = .completed
  | .lost => False

/-- The two stages of a worker are of the same task. -/
structure Alike (w w' : Worker) : Prop where
  session : w'.task.session = w.task.session
  id : w'.task.id = w.task.id
  fileName : w'.task.fileName = w.task.fileName
  declared : w'.task.declared = w.task.declared
  spool : w'.spool = w.spool

theorem Alike.trans {w w' w'' : Worker} (h : w.Alike w') (h' : w'.Alike w'') : w.Alike w'' :=
  ⟨h'.session.trans h.session, h'.id.trans h.id, h'.fileName.trans h.fileName,
    h'.declared.trans h.declared, h'.spool.trans h.spool⟩

/-! ## The task's steps -/

theorem apply_transition {t : FileTask} {next : TaskState} (h : t.state.allows next = true) :
    apply t (t.transition next)
      = ({ t with state := next }, some (Event.ofTask t.session t.id next.event t.fileName)) := by
  unfold FileTask.transition
  rw [if_pos h]
  rfl

theorem apply_succeed {t : FileTask} (h : t.state = .processingStarted) (text : String) :
    apply t (t.succeed text)
      = ({ t with state := .processed, outcome := some .success, content := some text },
        some (Event.ofTask t.session t.id .fileProcessed t.fileName)) := by
  unfold FileTask.succeed FileTask.transition
  rw [if_pos (by rw [h]; rfl)]
  rfl

theorem apply_fail {t : FileTask} (h : t.state = .processingStarted) (f : TaskFailure) :
    apply t (t.fail f)
      = ({ t with
            state := .processingError
            outcome := some f.outcome
            reason := some f.message },
        some ((Event.ofTask t.session t.id .fileProcessingError t.fileName).because
          f.message)) := by
  unfold FileTask.fail FileTask.transition
  rw [if_pos (by rw [h]; rfl)]
  rfl

/-- **How a finding is recorded**, for a task that was started. -/
theorem conclude_eq {t : FileTask} (h : t.state = .processingStarted) (finding : Finding) :
    (∃ text, judge finding = .ok text ∧ conclude t finding
      = ({ t with
            detected := finding.detected
            state := .processed
            outcome := some .success
            content := some text },
        some (Event.ofTask t.session t.id .fileProcessed t.fileName)))
    ∨ (∃ f, judge finding = .error f ∧ conclude t finding
      = ({ t with
            detected := finding.detected
            state := .processingError
            outcome := some f.outcome
            reason := some f.message },
        some ((Event.ofTask t.session t.id .fileProcessingError t.fileName).because
          f.message))) := by
  have hd : (t.detect finding.detected).state = .processingStarted := h
  unfold conclude
  cases hj : judge finding with
  | ok text => exact Or.inl ⟨text, rfl, apply_succeed hd text⟩
  | error f => exact Or.inr ⟨f, rfl, apply_fail hd f⟩

/-! ## The worker's steps -/

/-- What a step of a worker comes to, as far as others see it. -/
structure Tells (w : Worker) (s : WorkerStep) : Prop where
  consistent : s.worker.Consistent
  told : s.worker.told = w.told ++ s.event.toList
  alike : w.Alike s.worker
  /-- It leaves with the step that finishes it, and tells nothing then. -/
  leaves : s.leaves = s.worker.phase.isOver
  silent : s.leaves = true → s.event = none
  running : w.phase.isOver = false

variable {table : ExtractorTable} {gates : List String} {spools : Spools} {w : Worker}
  {s : WorkerStep}

theorem step?_ready (hp : w.phase = .ready) (hw : w.Consistent)
    (hs : w.step? table gates spools = some s) : w.Tells s := by
  unfold Consistent at hw
  rw [hp] at hw
  obtain ⟨hstate, hreason⟩ := hw
  have hallows : w.task.state.allows .processingStarted = true := by rw [hstate]; rfl
  have happ := apply_transition hallows
  simp only [step?, hp, happ] at hs
  cases hs
  refine ⟨⟨rfl, hreason⟩, ?_, ⟨rfl, rfl, rfl, rfl, rfl⟩, rfl, by simp,
    by rw [hp]; rfl⟩
  unfold told
  rw [hstate]
  rfl

theorem step?_opening (hp : w.phase = .opening) (hw : w.Consistent)
    (hs : w.step? table gates spools = some s) : w.Tells s := by
  unfold Consistent at hw
  rw [hp] at hw
  simp only [step?, hp] at hs
  split at hs
  · cases hs
    exact ⟨hw, (List.append_nil _).symm, ⟨rfl, rfl, rfl, rfl, rfl⟩, rfl, by simp,
      by rw [hp]; rfl⟩
  · cases hs
    exact ⟨hw, (List.append_nil _).symm, ⟨rfl, rfl, rfl, rfl, rfl⟩, rfl, by simp,
      by rw [hp]; rfl⟩

theorem step?_reading {detected : String} {x : Extractor} {content : Bytes}
    (hp : w.phase = .reading detected x content) (hw : w.Consistent)
    (hs : w.step? table gates spools = some s) : w.Tells s := by
  unfold Consistent at hw
  rw [hp] at hw
  simp only [step?, hp] at hs
  split at hs
  · cases hs
    exact ⟨hw, (List.append_nil _).symm, ⟨rfl, rfl, rfl, rfl, rfl⟩, rfl, by simp,
      by rw [hp]; rfl⟩
  · exact absurd hs (by simp)

/-- The verdict is known from here on. What was told before did not depend on it. -/
theorem step?_judging {finding : Finding} (hp : w.phase = .judging finding) (hw : w.Consistent)
    (hs : w.step? table gates spools = some s) : w.Tells s := by
  unfold Consistent at hw
  rw [hp] at hw
  obtain ⟨hstate, hreason⟩ := hw
  have hrun : w.phase.isOver = false := by rw [hp]; rfl
  simp only [step?, hp] at hs
  rcases conclude_eq hstate finding with ⟨text, _, hc⟩ | ⟨f, _, hc⟩
  · rw [hc] at hs
    cases hs
    refine ⟨⟨Or.inl ⟨rfl, hreason⟩, Or.inl rfl⟩, ?_, ⟨rfl, rfl, rfl, rfl, rfl⟩, rfl,
      by simp, hrun⟩
    unfold told FileTask.line Line.triple Line.judged
    rw [hstate, hreason]
    rfl
  · rw [hc] at hs
    cases hs
    refine ⟨⟨Or.inr ⟨f, rfl, rfl⟩, Or.inr rfl⟩, ?_, ⟨rfl, rfl, rfl, rfl, rfl⟩, rfl,
      by simp, hrun⟩
    unfold told FileTask.line Line.triple Line.judged
    rw [hstate]
    rfl

theorem step?_closing (hp : w.phase = .closing) (hw : w.Consistent)
    (hs : w.step? table gates spools = some s) : w.Tells s := by
  unfold Consistent at hw
  rw [hp] at hw
  obtain ⟨hjudged, hor⟩ := hw
  have hallows : w.task.state.allows .completed = true ∧ w.task.state.rank = 2 := by
    rcases hor with hstate | hstate <;> rw [hstate] <;> exact ⟨rfl, rfl⟩
  simp only [step?, hp, apply_transition hallows.1] at hs
  cases hs
  refine ⟨⟨hjudged, rfl⟩, ?_, ⟨rfl, rfl, rfl, rfl, rfl⟩, rfl, by simp,
    by rw [hp]; rfl⟩
  unfold told
  rw [hallows.2]
  rfl

theorem step?_leaving (hp : w.phase = .leaving) (hw : w.Consistent)
    (hs : w.step? table gates spools = some s) : w.Tells s := by
  unfold Consistent at hw
  rw [hp] at hw
  simp only [step?, hp] at hs
  cases hs
  exact ⟨hw, (List.append_nil _).symm, ⟨rfl, rfl, rfl, rfl, rfl⟩, rfl, by simp,
    by rw [hp]; rfl⟩

/-- **A step adds the event that it hands over to what was told, and nothing else.** -/
theorem step?_tells (hw : w.Consistent) (hs : w.step? table gates spools = some s) :
    w.Tells s := by
  cases hp : w.phase with
  | ready => exact step?_ready hp hw hs
  | opening => exact step?_opening hp hw hs
  | reading detected x content => exact step?_reading hp hw hs
  | judging finding => exact step?_judging hp hw hs
  | closing => exact step?_closing hp hw hs
  | leaving => exact step?_leaving hp hw hs
  | finished =>
      simp only [step?, hp] at hs
      exact absurd hs (by simp)
  | lost =>
      simp only [step?, hp] at hs
      exact absurd hs (by simp)

/-- What a worker hands over is never the last event of a session. -/
theorem Tells.progress (h : w.Tells s) {e : Event} (he : s.event = some e) :
    e.state.isTerminal = false := by
  have hm : e ∈ s.worker.told := by
    rw [h.told, he]
    exact List.mem_append_right _ (List.mem_singleton.mpr rfl)
  exact (Line.of_mem_triple (List.mem_of_mem_take hm)).2

/-- A worker that has not begun has told nothing. -/
theorem consistent_new {task : FileTask} {spool : Spool} (hs : task.state = .queued)
    (hr : task.reason = none) : Consistent { task, spool } := ⟨hs, hr⟩

theorem told_new {task : FileTask} {spool : Spool} (hs : task.state = .queued) :
    told { task, spool } = [] := by
  unfold told
  rw [hs]
  rfl

/-- A worker that is over and was not taken down has finished. -/
theorem finished_of_over (hw : w.Consistent) (ho : w.phase.isOver = true) :
    w.phase = .finished := by
  unfold Consistent at hw
  cases hp : w.phase with
  | finished => rfl
  | lost =>
      rw [hp] at hw
      exact absurd hw id
  | ready => rw [hp] at ho; exact absurd ho (by simp [WorkerPhase.isOver])
  | opening => rw [hp] at ho; exact absurd ho (by simp [WorkerPhase.isOver])
  | reading _ _ _ => rw [hp] at ho; exact absurd ho (by simp [WorkerPhase.isOver])
  | judging _ => rw [hp] at ho; exact absurd ho (by simp [WorkerPhase.isOver])
  | closing => rw [hp] at ho; exact absurd ho (by simp [WorkerPhase.isOver])
  | leaving => rw [hp] at ho; exact absurd ho (by simp [WorkerPhase.isOver])

/-- **A finished worker has told everything**, and its report says the same. -/
theorem told_finished (hw : w.Consistent) (ho : w.phase.isOver = true) :
    w.told = w.task.line.triple w.task.session ∧ w.report = w.task.report ∧ w.task.IsJudged := by
  have hp := finished_of_over hw ho
  unfold Consistent at hw
  rw [hp] at hw
  refine ⟨?_, ?_, hw.1⟩
  · unfold told
    rw [hw.2]
    rfl
  · unfold report
    rw [hp]

end Worker
end Intake
