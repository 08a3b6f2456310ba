import Intake.Proofs.Lines
import Intake.Proofs.Tasks
import Intake.Proofs.Weave
import Intake.Session

/-!
# The end of a file's sequence

A worker that is taken down in the middle still announces what is missing. `finalize_eq` says
what its finalizer is: three steps of which each is asked for, and those that do not lead on are
refused. So whatever a task went through before, its sequence is a whole one afterwards, and an
outcome is announced by the finalizer only if there was none.

A worker tells events and, at the very end, gives its ticket back. Its `deeds` are the list of
both. Whatever becomes of it, they are the beginning of one line's three events with the ticket
behind them, and all of it once the worker is over.

All this is said of a worker that has had its first turn. Before it there is no finalizer, and
what goes away then tells nothing.
-/

namespace Intake

/-- Holds of the stages that say how the processing of a file went. -/
def EventState.isOutcome : EventState → Bool
  | fileProcessed | fileProcessingError => true
  | _ => false

/-! ## The finalizer of a task -/

namespace FileTask

/-- What the finalizer asks of a task. -/
def lastCalls : List Call :=
  [.step (.moveTo .processingStarted), .step (.fail .aborted), .step (.moveTo .completed)]

/-- **What the finalizer does**: it asks for every step, and is refused where the task is
past it. -/
theorem finalize_eq (t : FileTask) :
    Worker.finalize t = (t.play lastCalls, t.told lastCalls) := by
  obtain ⟨_, _, _, _, _, state, _, _, _⟩ := t
  cases state <;> rfl

theorem play_lastCalls_state (t : FileTask) : (t.play lastCalls).state = .completed := by
  obtain ⟨_, _, _, _, _, state, _, _, _⟩ := t
  cases state <;> rfl

/-- The event of a task that was aborted. -/
def abortedEvent (t : FileTask) : Event :=
  (Event.ofTask t.session t.id .fileProcessingError t.fileName).because "worker aborted"

/-- The finalizer announces an outcome if the task had none. -/
theorem outcomes_lastCalls (t : FileTask) :
    (t.told lastCalls).filter (·.state.isOutcome)
      = if t.state = .queued ∨ t.state = .processingStarted then [t.abortedEvent] else [] := by
  obtain ⟨_, _, _, _, _, state, _, _, _⟩ := t
  cases state <;> rfl

/-- An outcome was told of every task that is past its processing. -/
theorem Coherent.judged {t : FileTask} {stages : List EventState} (h : t.Coherent stages) :
    stages.any EventState.isOutcome = true
      ↔ ¬ (t.state = .queued ∨ t.state = .processingStarted) := by
  have htrail := h.trail
  revert htrail
  cases t.state with
  | completed =>
      intro htrail
      rcases List.mem_cons.mp htrail with rfl | htrail
      · decide
      · cases List.mem_singleton.mp htrail
        decide
  | _ =>
      intro htrail
      cases List.mem_singleton.mp htrail
      decide

/-- Everything that is told of a task bears its ids and its file's name. -/
theorem Coherent.own {t : FileTask} {stages : List EventState} (h : t.Coherent stages)
    (cs : List Call) {e : Event} (he : e ∈ t.told cs) :
    e.guid = t.session ∧ e.uuid = t.id ∧ e.fileName = some t.fileName := by
  induction cs generalizing t stages with
  | nil => exact absurd he (by simp [told])
  | cons c cs ih =>
      obtain ⟨hc, hk⟩ := h.take c
      rcases List.mem_append.mp he with he | he
      · cases c with
        | detect mime => exact absurd he (by simp [FileTask.take])
        | step s =>
            cases hs : t.state.allows s.target with
            | true =>
                rw [take_of_allows hs] at he
                cases List.mem_singleton.mp he
                exact ⟨rfl, rfl, rfl⟩
            | false =>
                rw [take_of_refused hs] at he
                exact absurd he (by simp)
      · rw [← hk.session, ← hk.id, ← hk.fileName]
        exact ih hc he

/-- How the sequence of a task ends when it is left after some calls. -/
structure Closed (t₀ : FileTask) (cs : List Call) : Prop where
  state : (Worker.finalize (t₀.play cs)).1.state = .completed
  /-- What was told is one whole path. -/
  path : (t₀.told cs ++ (Worker.finalize (t₀.play cs)).2).map Event.state
    ∈ [[.fileProcessingStarted, .fileProcessed, .fileCompleted],
        [.fileProcessingStarted, .fileProcessingError, .fileCompleted]]
  own : ∀ e ∈ t₀.told cs ++ (Worker.finalize (t₀.play cs)).2,
    e.guid = t₀.session ∧ e.uuid = t₀.id ∧ e.fileName = some t₀.fileName
  /-- The finalizer announces an outcome exactly if none was announced before. -/
  outcome : (Worker.finalize (t₀.play cs)).2.filter (·.state.isOutcome)
    = if (t₀.told cs).any (·.state.isOutcome) then [] else [t₀.abortedEvent]

theorem Coherent.closed {t₀ : FileTask} (h₀ : t₀.Coherent []) (cs : List Call) :
    t₀.Closed cs := by
  obtain ⟨h, hk⟩ := h₀.play cs
  rw [List.nil_append] at h
  have hlast := (h₀.play (cs ++ lastCalls)).1.trail
  rw [play_append, play_lastCalls_state] at hlast
  have htold : t₀.told cs ++ (Worker.finalize (t₀.play cs)).2 = t₀.told (cs ++ lastCalls) := by
    rw [finalize_eq, told_append]
  refine ⟨?_, ?_, ?_, ?_⟩
  · rw [finalize_eq]
    exact play_lastCalls_state _
  · rw [htold]
    exact hlast
  · rw [htold]
    exact fun e he => h₀.own _ he
  · rw [finalize_eq, outcomes_lastCalls]
    have hany : ((t₀.told cs).map Event.state).any EventState.isOutcome
        = (t₀.told cs).any (·.state.isOutcome) := List.any_map
    have hjudged := h.judged
    rw [hany] at hjudged
    have habort : (t₀.play cs).abortedEvent = t₀.abortedEvent := by
      unfold abortedEvent
      rw [hk.session, hk.id, hk.fileName]
    by_cases hs : (t₀.play cs).state = .queued ∨ (t₀.play cs).state = .processingStarted
    · rw [if_pos hs, if_neg (fun ha => hjudged.mp ha hs), habort]
    · rw [if_neg hs, if_pos (hjudged.mpr hs)]

end FileTask

/-! ## The deeds of a worker -/

/-- What others see of a worker. -/
inductive Deed where
  /-- It hands an event over. -/
  | tell (e : Event)
  /-- It gives its ticket back. -/
  | leave
  deriving DecidableEq, Repr

/-- The deeds of a step, in their order. -/
def WorkerStep.deeds (s : WorkerStep) : List Deed :=
  s.event.toList.map .tell ++ if s.leaves then [.leave] else []

/-- All that there is to be seen of a worker. -/
def Line.deeds (guid : String) (l : Line) : List Deed :=
  (l.triple guid).map .tell ++ [.leave]

namespace Worker

/-- What can happen to a worker. -/
inductive Moment where
  /-- It takes a step, if it can. -/
  | step (table : ExtractorTable) (gates : List String) (spools : Spools)
  /-- It is taken down. -/
  | abort

/-- A worker after a moment, with its deeds. -/
def meet (w : Worker) : Moment → Worker × List Deed
  | .step table gates spools =>
    match w.step? table gates spools with
    | some s => (s.worker, s.deeds)
    | none => (w, [])
  | .abort => (w.abort.1, if w.phase.isOver then [] else w.abort.2.map .tell ++ [.leave])

/-- A worker after some moments, with its deeds in order. -/
def live (w : Worker) : List Moment → Worker × List Deed
  | [] => (w, [])
  | m :: ms => (((w.meet m).1.live ms).1, (w.meet m).2 ++ ((w.meet m).1.live ms).2)

/-- The deeds of a worker that was not taken down. -/
def deeds (w : Worker) : List Deed :=
  w.told.map .tell ++ if w.phase.isOver then [.leave] else []

theorem alike_finalize (w : Worker) :
    w.Alike { w with task := (finalize w.task).1, phase := .lost } := by
  obtain ⟨⟨_, _, _, _, _, state, _, _, _⟩, _, _⟩ := w
  cases state <;> exact ⟨rfl, rfl, rfl, rfl, rfl⟩

/-- **What the finalizer adds makes a whole line**, wherever the worker was. -/
theorem told_finalize {w : Worker} (hw : w.Consistent) :
    w.told ++ (finalize w.task).2
      = (finalize w.task).1.line.triple (finalize w.task).1.session := by
  have hstate : (w.task.state = .queued ∨ w.task.state = .processingStarted) ∧ w.task.reason = none
      ∨ w.task.state = .processed ∨ w.task.state = .processingError
      ∨ w.task.state = .completed := by
    unfold Consistent at hw
    split at hw
    · exact Or.inl ⟨Or.inl hw.1, hw.2⟩
    · exact Or.inl ⟨Or.inr hw.1, hw.2⟩
    · exact Or.inl ⟨Or.inr hw.1, hw.2⟩
    · exact Or.inl ⟨Or.inr hw.1, hw.2⟩
    · exact Or.inr (hw.2.imp_right Or.inl)
    · exact Or.inr (Or.inr (Or.inr hw.2))
    · exact Or.inr (Or.inr (Or.inr hw.2))
    · exact absurd hw id
  -- before its outcome a worker has told nothing that depends on the verdict
  obtain ⟨⟨_, _, _, _, _, state, _, _, reason⟩, _, _⟩ := w
  dsimp only at hstate
  rcases hstate with ⟨rfl | rfl, rfl⟩ | rfl | rfl | rfl <;> rfl

section

variable {w : Worker}

theorem meet_of_step {table : ExtractorTable} {gates : List String} {spools : Spools}
    {s : WorkerStep} (hs : w.step? table gates spools = some s) :
    w.meet (.step table gates spools) = (s.worker, s.deeds) := by
  unfold meet
  dsimp only
  rw [hs]

theorem meet_of_stuck {table : ExtractorTable} {gates : List String} {spools : Spools}
    (hs : w.step? table gates spools = none) : w.meet (.step table gates spools) = (w, []) := by
  unfold meet
  dsimp only
  rw [hs]

theorem meet_abort_over (ho : w.phase.isOver = true) : w.meet .abort = (w, []) := by
  unfold meet abort
  dsimp only
  rw [if_pos ho, if_pos ho]

theorem meet_abort (ho : w.phase.isOver = false) :
    w.meet .abort
      = ({ w with task := (finalize w.task).1, phase := .lost },
        (finalize w.task).2.map .tell ++ [.leave]) := by
  have hn : ¬ w.phase.isOver = true := by rw [ho]; decide
  unfold meet abort
  dsimp only
  rw [if_neg hn, if_neg hn]

end

/-- What holds of a worker, with its deeds since it was another one that had not begun. -/
structure Lived (w₀ w : Worker) (ds : List Deed) : Prop where
  alike : w₀.Alike w
  deeds : (w.Consistent ∧ ds = w.deeds)
    ∨ (w.phase = .lost ∧ ds = w.task.line.deeds w.task.session)

namespace Lived

variable {w₀ w : Worker} {ds : List Deed}

/-- A step of a worker adds its deeds. -/
theorem step {s : WorkerStep} {table : ExtractorTable} {gates : List String}
    {spools : Spools} (h : w₀.Lived w ds) (hs : w.step? table gates spools = some s) :
    w₀.Lived s.worker (ds ++ s.deeds) := by
  rcases h.deeds with ⟨hw, rfl⟩ | ⟨hp, _⟩
  · have ht := step?_tells hw hs
    refine ⟨h.alike.trans ht.alike, Or.inl ⟨ht.consistent, ?_⟩⟩
    unfold Worker.deeds WorkerStep.deeds
    rw [ht.running, if_neg (by decide), List.append_nil, ht.told, ht.leaves, List.map_append,
      List.append_assoc]
  · exact absurd hs (by simp [step?, hp])

/-- A worker that is taken down adds what is missing, and gives its ticket back. -/
theorem abort (h : w₀.Lived w ds) (ho : w.phase.isOver = false) :
    w₀.Lived (w.meet .abort).1 (ds ++ (w.meet .abort).2) := by
  rw [meet_abort ho]
  rcases h.deeds with ⟨hw, rfl⟩ | ⟨hp, _⟩
  · refine ⟨h.alike.trans (alike_finalize w), Or.inr ⟨rfl, ?_⟩⟩
    unfold Worker.deeds Line.deeds
    rw [ho, if_neg (by decide), List.append_nil, ← told_finalize hw, List.map_append,
      List.append_assoc]
  · exact absurd ho (by rw [hp]; decide)

/-- **Whatever happens to a worker adds its deeds.** -/
theorem meet (h : w₀.Lived w ds) (m : Moment) :
    w₀.Lived (w.meet m).1 (ds ++ (w.meet m).2) := by
  cases m with
  | step table gates spools =>
      cases hs : w.step? table gates spools with
      | some s =>
          rw [meet_of_step hs]
          exact h.step hs
      | none =>
          rw [meet_of_stuck hs, List.append_nil]
          exact h
  | abort =>
      cases ho : w.phase.isOver with
      | true =>
          rw [meet_abort_over ho, List.append_nil]
          exact h
      | false => exact h.abort ho

/-- **Whatever becomes of a worker.** -/
theorem live (h : w₀.Lived w ds) (ms : List Moment) :
    w₀.Lived (w.live ms).1 (ds ++ (w.live ms).2) := by
  induction ms generalizing w ds with
  | nil =>
      rw [show (w.live []).2 = [] from rfl, List.append_nil]
      exact h
  | cons m ms ih =>
      have hms := ih (h.meet m)
      rw [List.append_assoc] at hms
      exact hms

/-- The deeds of a worker that is over. -/
theorem finished (h : w₀.Lived w ds) (ho : w.phase.isOver = true) :
    ds = w.task.line.deeds w₀.task.session := by
  rw [← h.alike.session]
  rcases h.deeds with ⟨hw, rfl⟩ | ⟨_, rfl⟩
  · unfold Worker.deeds Line.deeds
    rw [(told_finished hw ho).1, if_pos ho]
  · rfl

/-- The deeds of one that is not are the beginning of these, without the ticket. -/
theorem running (h : w₀.Lived w ds) (ho : w.phase.isOver = false) :
    ds <+: (w.task.line.triple w₀.task.session).map .tell := by
  rw [← h.alike.session]
  rcases h.deeds with ⟨hw, rfl⟩ | ⟨hp, _⟩
  · unfold Worker.deeds
    rw [ho, if_neg (by decide), List.append_nil]
    exact (List.take_prefix _ _).map _
  · exact absurd ho (by rw [hp]; decide)

end Lived

/-! ## A worker's calls -/

end Worker

/-- The event of a deed. -/
def Deed.event? : Deed → Option Event
  | tell e => some e
  | leave => none

theorem Deed.events_tell (es : List Event) : (es.map Deed.tell).filterMap Deed.event? = es := by
  rw [List.filterMap_map]
  exact List.filterMap_some

theorem WorkerStep.events_deeds (s : WorkerStep) :
    s.deeds.filterMap Deed.event? = s.event.toList := by
  unfold WorkerStep.deeds
  rw [List.filterMap_append, Deed.events_tell]
  split <;> exact List.append_nil _

namespace Worker

variable {w : Worker}

/-- What a finding has a worker ask of its task. -/
def verdict (finding : Finding) : FileTask.Step :=
  match judge finding with
  | .ok text => .succeed text
  | .error f => .fail f

theorem conclude_calls (t : FileTask) (finding : Finding) :
    conclude t finding = ((t.detect finding.detected).take (.step (verdict finding))) := by
  unfold conclude verdict
  cases judge finding <;> rfl

/-- What a worker asks of its task with its next step. -/
def calls (w : Worker) : List FileTask.Call :=
  match w.phase with
  | .ready => [.step (.moveTo .processingStarted)]
  | .judging finding => [.detect finding.detected, .step (verdict finding)]
  | .closing => [.step (.moveTo .completed)]
  | _ => []

theorem step?_calls {table : ExtractorTable} {gates : List String} {spools : Spools}
    {s : WorkerStep} (hs : w.step? table gates spools = some s) :
    s.worker.task = w.task.play w.calls ∧ s.event.toList = w.task.told w.calls := by
  have htold : ∀ (t : FileTask) (c : FileTask.Call), (t.take c).2.toList = t.told [c] :=
    fun t c => (List.append_nil _).symm
  unfold calls
  cases hp : w.phase with
  | ready =>
      simp only [step?, hp] at hs
      cases hs
      exact ⟨rfl, htold w.task (.step (.moveTo .processingStarted))⟩
  | opening =>
      simp only [step?, hp] at hs
      split at hs
      · cases hs
        exact ⟨rfl, rfl⟩
      · cases hs
        exact ⟨rfl, rfl⟩
  | reading detected x content =>
      simp only [step?, hp] at hs
      split at hs
      · cases hs
        exact ⟨rfl, rfl⟩
      · exact absurd hs (by simp)
  | judging finding =>
      simp only [step?, hp, conclude_calls] at hs
      cases hs
      exact ⟨rfl, htold (w.task.detect finding.detected) (.step (verdict finding))⟩
  | closing =>
      simp only [step?, hp] at hs
      cases hs
      exact ⟨rfl, htold w.task (.step (.moveTo .completed))⟩
  | leaving =>
      simp only [step?, hp] at hs
      cases hs
      exact ⟨rfl, rfl⟩
  | finished => exact absurd hs (by simp [step?, hp])
  | lost => exact absurd hs (by simp [step?, hp])

/-- **What happens to a worker is a sequence of calls to its task**, and it tells what they
tell. -/
theorem meet_calls (w : Worker) (m : Moment) :
    ∃ cs, (w.meet m).1.task = w.task.play cs
      ∧ (w.meet m).2.filterMap Deed.event? = w.task.told cs := by
  cases m with
  | step table gates spools =>
      cases hs : w.step? table gates spools with
      | some s =>
          rw [meet_of_step hs, WorkerStep.events_deeds]
          exact ⟨w.calls, step?_calls hs⟩
      | none =>
          rw [meet_of_stuck hs]
          exact ⟨[], rfl, rfl⟩
  | abort =>
      cases ho : w.phase.isOver with
      | true =>
          rw [meet_abort_over ho]
          exact ⟨[], rfl, rfl⟩
      | false =>
          rw [meet_abort ho, List.filterMap_append, Deed.events_tell, FileTask.finalize_eq]
          exact ⟨FileTask.lastCalls, rfl, List.append_nil _⟩

theorem live_calls (w : Worker) (ms : List Moment) :
    ∃ cs, (w.live ms).1.task = w.task.play cs
      ∧ (w.live ms).2.filterMap Deed.event? = w.task.told cs := by
  induction ms generalizing w with
  | nil => exact ⟨[], rfl, rfl⟩
  | cons m ms ih =>
      obtain ⟨cs, htask, htold⟩ := w.meet_calls m
      obtain ⟨ds, htask', htold'⟩ := ih (w.meet m).1
      refine ⟨cs ++ ds, ?_, ?_⟩
      · rw [FileTask.play_append, ← htask]
        exact htask'
      · rw [FileTask.told_append, ← htask, ← htold, ← htold']
        exact List.filterMap_append

end Worker

/-! ## What the session sees of a worker -/

namespace Run

/-- What a deed of a worker is to its session. -/
def suffer (r : Run) : Deed → Run
  | .tell e => r.emit e
  | .leave => { r with relay := r.relay.release, barrier := r.barrier.leave }

theorem foldl_tell (r : Run) (es : List Event) :
    (es.map Deed.tell).foldl suffer r = es.foldl emit r := by
  rw [List.foldl_map]
  rfl

/-- The session after something happened to its worker at a place. -/
def meet (r : Run) (i : Nat) (w : Worker) (m : Worker.Moment) : Run :=
  (w.meet m).2.foldl suffer { r with workers := r.workers.set i (w.meet m).1 }

variable {r : Run} {hub : Hub} {i : Nat} {w : Worker}

theorem applyStep_deeds (s : WorkerStep) :
    (r.applyStep hub i s).2
      = s.deeds.foldl suffer { r with workers := r.workers.set i s.worker } := by
  unfold WorkerStep.deeds applyStep
  rw [List.foldl_append, foldl_tell]
  cases s.event <;> cases s.leaves <;> rfl

theorem act?_worker {hub' : Hub} {r' : Run} (hi : r.workers[i]? = some w)
    (h : r.act? (.worker i) hub = some (hub', r')) :
    r' = r.meet i w (.step r.table hub.gates hub.spools) := by
  unfold act? at h
  dsimp only at h
  rw [hi] at h
  obtain ⟨s, hs, hr⟩ := Option.map_eq_some_iff.mp h
  unfold meet
  rw [Worker.meet_of_step hs, ← applyStep_deeds, hr]

theorem abortWorker_eq (hi : r.workers[i]? = some w) :
    (r.abortWorker hub i).2 = r.meet i w .abort := by
  unfold abortWorker meet
  rw [hi]
  dsimp only
  cases ho : w.phase.isOver with
  | true =>
      rw [Worker.meet_abort_over ho, if_pos rfl, set_self hi]
      rfl
  | false =>
      rw [Worker.meet_abort ho, if_neg (by decide), List.foldl_append, foldl_tell]
      unfold Worker.abort
      rw [ho, if_neg (by decide)]
      rfl

end Run

/-! ## The theorem -/

namespace Worker

/-- What holds of a worker, whatever happened to it since it began. -/
structure Sequence (w₀ : Worker) (ms : List Moment) : Prop where
  /-- Its task went through calls, and it told what they tell. -/
  calls : ∃ cs, (w₀.live ms).1.task = w₀.task.play cs
    ∧ (w₀.live ms).2.filterMap Deed.event? = w₀.task.told cs
  /-- Until it is over it has told the beginning of its line, and kept its ticket. -/
  running : (w₀.live ms).1.phase.isOver = false →
    ∃ l : Line, l.uuid = w₀.task.id ∧ l.fileName = w₀.task.fileName
      ∧ (w₀.live ms).2 <+: (l.triple w₀.task.session).map .tell
  /-- Once it is over it has told the whole line, and given its ticket back behind that. -/
  finished : (w₀.live ms).1.phase.isOver = true →
    ∃ l : Line, l.uuid = w₀.task.id ∧ l.fileName = w₀.task.fileName
      ∧ l.verdict = (w₀.live ms).1.task.reason
      ∧ (w₀.live ms).2 = (l.triple w₀.task.session).map .tell ++ [.leave]
  ticket : .leave ∈ (w₀.live ms).2 ↔ (w₀.live ms).1.phase.isOver = true
  /-- If it is taken down, an outcome is announced then exactly if none was before. -/
  outcome : (w₀.live ms).1.phase.isOver = false →
    (w₀.live ms).1.abort.2.filter (·.state.isOutcome)
      = if ((w₀.live ms).2.filterMap Deed.event?).any (·.state.isOutcome) then []
        else [w₀.task.abortedEvent]
  /-- Behind its last event nothing is told, also if it is taken down then. -/
  complete : (w₀.live ms).1.phase = .leaving →
    ∀ ms', ((w₀.live ms).1.live ms').2.filterMap Deed.event? = []
  /-- What the session sees of it are its deeds, in their order. -/
  stepped : ∀ (r : Run) (hub hub' : Hub) (r' : Run) (i : Nat),
    r.workers[i]? = some (w₀.live ms).1 → r.act? (.worker i) hub = some (hub', r') →
      r' = r.meet i (w₀.live ms).1 (.step r.table hub.gates hub.spools)
  aborted : ∀ (r : Run) (hub : Hub) (i : Nat), r.workers[i]? = some (w₀.live ms).1 →
    (r.abortWorker hub i).2 = r.meet i (w₀.live ms).1 .abort

namespace Lived

variable {w₀ w : Worker} {ds : List Deed}

/-- The ticket is given back in the end, and not before. -/
theorem leave_mem (h : w₀.Lived w ds) : .leave ∈ ds ↔ w.phase.isOver = true := by
  cases ho : w.phase.isOver with
  | true =>
      rw [h.finished ho]
      simp [Line.deeds]
  | false =>
      refine iff_of_false (fun hm => ?_) (by decide)
      have hm := (h.running ho).subset hm
      simp at hm

/-- No worker tells more than three events, whatever happens to it. -/
theorem events_le (h : w₀.Lived w ds) : (ds.filterMap Deed.event?).length ≤ 3 := by
  cases ho : w.phase.isOver with
  | true =>
      rw [h.finished ho]
      unfold Line.deeds
      rw [List.filterMap_append, Deed.events_tell]
      exact Nat.le_refl 3
  | false =>
      have hle := ((h.running ho).filterMap Deed.event?).length_le
      rw [Deed.events_tell] at hle
      exact hle

/-- One that has completed its task has told three. -/
theorem events_leaving (h : w₀.Lived w ds) (hp : w.phase = .leaving) :
    (ds.filterMap Deed.event?).length = 3 := by
  rcases h.deeds with ⟨hw, rfl⟩ | ⟨hlost, _⟩
  · have hstate : w.task.state = .completed := by
      unfold Consistent at hw
      rw [hp] at hw
      exact hw.2
    unfold Worker.deeds
    rw [hp, if_neg (by decide), List.append_nil, Deed.events_tell]
    unfold told
    rw [hstate]
    rfl
  · exact absurd hlost (by simp [hp])

theorem silent (h : w₀.Lived w ds) (hp : w.phase = .leaving) (ms : List Moment) :
    (w.live ms).2.filterMap Deed.event? = [] := by
  -- three events were told, and there are never more
  have hle := (h.live ms).events_le
  rw [List.filterMap_append, List.length_append, h.events_leaving hp] at hle
  exact List.eq_nil_of_length_eq_zero (by omega)

theorem sequence (h : w₀.Lived w₀ []) (h₀ : w₀.task.Coherent []) (ms : List Moment) :
    w₀.Sequence ms := by
  have hlive := h.live ms
  rw [List.nil_append] at hlive
  exact {
    calls := w₀.live_calls ms
    running := fun ho => ⟨_, hlive.alike.id, hlive.alike.fileName, hlive.running ho⟩
    finished := fun ho => ⟨_, hlive.alike.id, hlive.alike.fileName, rfl, hlive.finished ho⟩
    ticket := hlive.leave_mem
    outcome := fun ho => by
      obtain ⟨cs, htask, htold⟩ := w₀.live_calls ms
      have habort : (w₀.live ms).1.abort.2 = (finalize (w₀.live ms).1.task).2 := by
        unfold Worker.abort
        rw [ho, if_neg (by decide)]
      rw [habort, htask, htold]
      exact (h₀.closed cs).outcome
    complete := fun hp ms' => hlive.silent hp ms'
    stepped := fun _ _ _ _ _ hi h => Run.act?_worker hi h
    aborted := fun _ _ _ hi => Run.abortWorker_eq hi }

end Lived

/-- **Every sequence is closed.** However a task is left, its finalizer makes one whole path of
what was told, with an outcome of its own only where there was none; and a worker, whatever
happens to it, gives its ticket back when it has told its whole line, and tells nothing after
its last event. -/
theorem sequence_closed (session id fileName : String) (declared : Option String) :
    (∀ cs, (FileTask.fresh session id fileName declared).Closed cs)
      ∧ ∀ spool ms, Sequence { task := .fresh session id fileName declared, spool } ms := by
  have hfresh := FileTask.coherent_fresh session id fileName declared
  refine ⟨hfresh.closed, fun spool ms => ?_⟩
  have hnew : ({ task := .fresh session id fileName declared, spool } : Worker).Consistent :=
    consistent_new rfl rfl
  exact Lived.sequence ⟨⟨rfl, rfl, rfl, rfl, rfl⟩, Or.inl ⟨hnew, rfl⟩⟩ hfresh ms

end Worker
end Intake
