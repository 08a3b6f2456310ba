import Intake.Proofs.Course
import Intake.Proofs.Lines
import Intake.Proofs.Weave

/-!
# The log of a session

What a session hands to its relay, in order: that the upload started, that each file was
queued, then the three events of each file's worker, however the workers took turns, and in the
end that the session is completed. At any time before, the log is a beginning of such a log.

The invariant is `Logged`. Beside the shape of the log it says which lists are empty in which
phase, and that from a certain phase on all workers are over. The last event comes after all
others because of that: the run hands it over when it has seen every worker over, and a
worker has told everything by then.
-/

namespace Intake

/-- **The log of a whole session**, of which some lines are to be told. -/
def WholeLog (guid : String) (lines : List Line) (log : List Event) : Prop :=
  ∃ mid, Woven (lines.map (Line.triple guid)) mid
    ∧ log = Event.ofSession guid .uploadStarted :: lines.map (Line.queued guid) ++ mid
        ++ [Event.ofSession guid .completed]

theorem length_triples (guid : String) (lines : List Line) :
    (lines.map (Line.triple guid)).flatten.length = 3 * lines.length := by
  induction lines with
  | nil => rfl
  | cons l ls ih =>
      rw [List.map_cons, List.flatten_cons, List.length_append, ih, List.length_cons]
      show 3 + 3 * ls.length = _
      omega

theorem wholeLog_length {guid : String} {lines : List Line} {log : List Event}
    (h : WholeLog guid lines log) : log.length = 4 * lines.length + 2 := by
  obtain ⟨mid, hmid, hlog⟩ := h
  rw [hlog]
  simp only [List.length_append, List.length_cons, List.length_map, List.length_nil]
  rw [hmid.length_eq, length_triples]
  omega

theorem length_of_names {lines : List Line} {files : List Submission}
    (h : lines.map Line.fileName = files.map Submission.fileName) :
    lines.length = files.length := by
  have hlen := congrArg List.length h
  rw [List.length_map, List.length_map] at hlen
  exact hlen

/-- How far a phase is. A run that was given up may have been anywhere at the barrier or
after it. -/
def RunPhase.rank : RunPhase → Nat
  | announcing => 0
  | queueing => 1
  | spawning => 2
  | waiting | overdue | abandoned => 3
  | collecting => 4
  | submitting => 5
  | awaitingOutcome => 6
  | stopping => 7
  | awaitingStop => 8
  | returned => 9

namespace Run

/-- The tasks that there are so far, in the order of submission. -/
def tasks (r : Run) : List FileTask :=
  r.workers.map Worker.task ++ r.queued.map Prod.fst

/-- The event that a task was queued. -/
def announce (t : FileTask) : Event :=
  Event.ofTask t.session t.id .fileQueued t.fileName

/-- What the run itself has told before it began to wait. -/
def opening (r : Run) : List Event :=
  match r.phase with
  | .announcing => []
  | _ => Event.ofSession r.id .uploadStarted :: r.tasks.map announce

theorem opening_eq {r : Run} (h : 1 ≤ r.phase.rank) :
    r.opening = Event.ofSession r.id .uploadStarted :: r.tasks.map announce := by
  unfold opening
  split
  · rename_i hp
    rw [hp] at h
    exact absurd h (by simp [RunPhase.rank])
  · rfl

theorem opening_nil {r : Run} (h : r.phase.rank = 0) : r.opening = [] := by
  unfold opening
  split
  · rfl
  · rename_i hp
    cases hq : r.phase <;> rw [hq] at h <;> simp_all [RunPhase.rank]

/-- How a log can end: with the session's last event, if the run has come to it. -/
def Closing (r : Run) (tail : List Event) : Prop :=
  (tail = [] ∧ r.phase.rank < 6)
    ∨ (tail = [r.lastEvent] ∧ (∀ w ∈ r.workers, w.phase.isOver = true)
      ∧ (6 ≤ r.phase.rank ∨ r.phase = .abandoned))

end Run

/-- **The invariant of a run and its log.** -/
structure Logged (p : Prepared) (r : Run) (log : List Event) : Prop where
  id : r.id = p.id
  /-- Every file is a worker's, or its task waits for one, or it has no task yet. -/
  names : r.tasks.map FileTask.fileName ++ r.files.map Submission.fileName
    = p.files.map Submission.fileName
  session : ∀ t ∈ r.tasks, t.session = p.id
  queued : ∀ q ∈ r.queued, q.1.state = .queued ∧ q.1.reason = none
  consistent : ∀ w ∈ r.workers, w.Consistent
  noTasks : r.phase.rank = 0 → r.queued = []
  noWorkers : r.phase.rank ≤ 1 → r.workers = []
  allQueued : 2 ≤ r.phase.rank → r.files = []
  allSpawned : 3 ≤ r.phase.rank → r.queued = []
  allOver : 5 ≤ r.phase.rank → ∀ w ∈ r.workers, w.phase.isOver = true
  shape : ∃ mid tail, Woven (r.workers.map Worker.told) mid ∧ r.Closing tail
    ∧ log = r.opening ++ mid ++ tail

namespace Logged

variable {p : Prepared} {r r' : Run} {log : List Event}

theorem init {q : Prepared} (hid : q.id = p.id) (hf : q.files = p.files) (now : Nat) :
    Logged p (Run.start q now) [] where
  id := hid
  names := congrArg (List.map Submission.fileName) hf
  session := fun t ht => absurd ht (by simp [Run.start, Run.tasks])
  queued := fun q hq => absurd hq (by simp [Run.start])
  consistent := fun w hw => absurd hw (by simp [Run.start])
  noTasks := fun _ => rfl
  noWorkers := fun _ => rfl
  allQueued := fun h => absurd h (by simp [Run.start, RunPhase.rank])
  allSpawned := fun h => absurd h (by simp [Run.start, RunPhase.rank])
  allOver := fun h => absurd h (by simp [Run.start, RunPhase.rank])
  shape := ⟨[], [], .empty, Or.inl ⟨rfl, by simp [Run.start, RunPhase.rank]⟩, rfl⟩

/-- Until the run hands its last event over, the log ends with what the workers have told. -/
theorem unclosed (h : Logged p r log) (hr : r.phase.rank < 6) (hab : r.phase ≠ .abandoned) :
    ∃ mid, Woven (r.workers.map Worker.told) mid ∧ log = r.opening ++ mid := by
  obtain ⟨mid, tail, hmid, ⟨htail, _⟩ | ⟨_, _, h6 | hab'⟩, hlog⟩ := h.shape
  · rw [htail, List.append_nil] at hlog
    exact ⟨mid, hmid, hlog⟩
  · omega
  · exact absurd hab' hab

/-- Before there are workers, the log is what the run has told. -/
theorem log_eq_opening (h : Logged p r log) (hr : r.phase.rank ≤ 1) : log = r.opening := by
  obtain ⟨mid, hmid, hlog⟩ := h.unclosed (by omega) (by
    intro hab
    rw [hab] at hr
    exact absurd hr (by simp [RunPhase.rank]))
  have hlen := hmid.length_eq
  rw [h.noWorkers hr] at hlen
  have hnil : mid = [] := List.eq_nil_of_length_eq_zero hlen
  rw [hlog, hnil, List.append_nil]

/-! ## Steps that concern the phase alone -/

/-- **A run goes on to another phase.** -/
theorem rephase (h : Logged p r log) (hid : r'.id = r.id) (hf : r'.files = r.files)
    (hq : r'.queued = r.queued) (hw : r'.workers = r.workers)
    (hbegun : 1 ≤ r.phase.rank) (hab : r.phase ≠ .abandoned)
    (hle : r.phase.rank ≤ r'.phase.rank ∨ r'.phase = .abandoned)
    (h2 : 2 ≤ r'.phase.rank → r.files = []) (h3 : 3 ≤ r'.phase.rank → r.queued = [])
    (h5 : 5 ≤ r'.phase.rank → ∀ w ∈ r.workers, w.phase.isOver = true)
    (h6 : r.phase.rank < 6 → r'.phase.rank < 6) :
    Logged p r' log := by
  have htasks : r'.tasks = r.tasks := by
    unfold Run.tasks
    rw [hw, hq]
  have hpos : 1 ≤ r'.phase.rank := by
    rcases hle with hle | hab'
    · omega
    · rw [hab']
      simp [RunPhase.rank]
  -- the start was announced before, so the opening is that of the same tasks
  have hopening : r'.opening = r.opening := by
    rw [Run.opening_eq hpos, Run.opening_eq hbegun, htasks, hid]
  obtain ⟨mid, tail, hmid, htail, hlog⟩ := h.shape
  refine {
    id := hid.trans h.id
    names := by rw [htasks, hf]; exact h.names
    session := by rw [htasks]; exact h.session
    queued := by rw [hq]; exact h.queued
    consistent := by rw [hw]; exact h.consistent
    noTasks := fun h0 => absurd h0 (by omega)
    noWorkers := ?_
    allQueued := fun hr => hf.trans (h2 hr)
    allSpawned := fun hr => hq.trans (h3 hr)
    allOver := fun hr => by rw [hw]; exact h5 hr
    shape := ⟨mid, tail, by rw [hw]; exact hmid, ?_, by rw [hopening]; exact hlog⟩ }
  · intro hr
    rw [hw]
    rcases hle with hle | hab'
    · exact h.noWorkers (by omega)
    · rw [hab'] at hr
      exact absurd hr (by simp [RunPhase.rank])
  · have hlast : r'.lastEvent = r.lastEvent := by
      unfold Run.lastEvent
      rw [hid]
    unfold Run.Closing
    rw [hlast, hw]
    rcases htail with ⟨hnil, hr⟩ | ⟨hlst, hover, hrank⟩
    · exact Or.inl ⟨hnil, h6 hr⟩
    · refine Or.inr ⟨hlst, hover, ?_⟩
      rcases hrank with h6' | hab'
      · rcases hle with hle | hab''
        · exact Or.inl (by omega)
        · exact Or.inr hab''
      · exact absurd hab' hab

/-- From the barrier on all files are queued and all tasks have a worker. -/
theorem advance (h : Logged p r log) (n m : Nat) (hid : r'.id = r.id)
    (hf : r'.files = r.files) (hq : r'.queued = r.queued) (hw : r'.workers = r.workers)
    (hn : r.phase.rank = n) (hm : r'.phase.rank = m) (hab : r.phase ≠ .abandoned)
    (h3 : 3 ≤ n) (hle : n ≤ m)
    (h5 : 5 ≤ m → ∀ w ∈ r.workers, w.phase.isOver = true) (h6 : m < 6 ∨ 6 ≤ n) :
    Logged p r' log := by
  refine h.rephase hid hf hq hw (by omega) hab (Or.inl (by omega)) ?_ ?_ ?_ (by omega)
  · intro _
    exact h.allQueued (by omega)
  · intro _
    exact h.allSpawned (by omega)
  · intro hge
    exact h5 (by omega)

/-- What only the relay or the extractors know has nothing to do with the log. -/
theorem relay (h : Logged p r log) (relay : Relay) : Logged p { r with relay } log :=
  ⟨h.id, h.names, h.session, h.queued, h.consistent, h.noTasks, h.noWorkers, h.allQueued,
    h.allSpawned, h.allOver, h.shape⟩

theorem tend (h : Logged p r log) (mirror : Option Mirror) (table : ExtractorTable) :
    Logged p { r with table, relay := { r.relay with mirror } } log :=
  ⟨h.id, h.names, h.session, h.queued, h.consistent, h.noTasks, h.noWorkers, h.allQueued,
    h.allSpawned, h.allOver, h.shape⟩

theorem abandon (h : Logged p r log) (hub : Hub) : Logged p (r.abandon hub).2 log := by
  unfold Run.abandon
  split
  · rename_i hs
    have hr : 3 ≤ r.phase.rank ∧ r.phase ≠ .abandoned := by
      unfold Run.isSuspended at hs
      cases hp : r.phase <;> rw [hp] at hs <;> simp_all [RunPhase.rank]
    refine h.rephase rfl rfl rfl rfl (by omega) hr.2 (Or.inr rfl) (fun _ => ?_) (fun _ => ?_)
      (fun h5 => absurd h5 (by simp [RunPhase.rank])) (fun _ => by simp [RunPhase.rank])
    · exact h.allQueued (by omega)
    · exact h.allSpawned hr.1
  · exact h

/-! ## Steps that tell something -/

theorem announced (h : Logged p r log) (hp : r.phase = .announcing) :
    Logged p (Run.emit { r with phase := .queueing } (Event.ofSession r.id .uploadStarted))
      (log ++ [Event.ofSession r.id .uploadStarted]) where
  id := h.id
  names := h.names
  session := h.session
  queued := h.queued
  consistent := h.consistent
  noTasks := fun h0 => absurd h0 (by simp [Run.emit, RunPhase.rank])
  noWorkers := fun _ => h.noWorkers (by rw [hp]; simp [RunPhase.rank])
  allQueued := fun h2 => absurd h2 (by simp [Run.emit, RunPhase.rank])
  allSpawned := fun h3 => absurd h3 (by simp [Run.emit, RunPhase.rank])
  allOver := fun h5 => absurd h5 (by simp [Run.emit, RunPhase.rank])
  shape := by
    have hq : r.queued = [] := h.noTasks (by rw [hp]; rfl)
    have hw : r.workers = [] := h.noWorkers (by rw [hp]; simp [RunPhase.rank])
    have hlog : log = [] := by
      rw [h.log_eq_opening (by rw [hp]; simp [RunPhase.rank])]
      unfold Run.opening
      rw [hp]
    refine ⟨[], [], ?_, Or.inl ⟨rfl, by simp [Run.emit, RunPhase.rank]⟩, ?_⟩
    · show Woven (r.workers.map Worker.told) []
      rw [hw]
      exact .empty
    · rw [hlog, Run.opening_eq (by simp [Run.emit, RunPhase.rank])]
      unfold Run.tasks
      show _ = Event.ofSession r.id .uploadStarted
        :: (r.workers.map Worker.task ++ r.queued.map Prod.fst).map Run.announce ++ [] ++ []
      rw [hw, hq]
      rfl

theorem queuedNext {f : Submission} {files : List Submission} {hub : Hub} (h : Logged p r log)
    (hp : r.phase = .queueing) (hf : r.files = f :: files) (hid : r'.id = r.id)
    (hp' : r'.phase = r.phase) (hf' : r'.files = files)
    (hq : r'.queued = r.queued ++ [(r.taskOf hub f, f.spool)]) (hw : r'.workers = r.workers) :
    Logged p r' (log ++ [(r.taskOf hub f).currentEvent]) := by
  have hrank : r.phase.rank = 1 := by rw [hp]; rfl
  have hrank' : r'.phase.rank = 1 := by rw [hp']; exact hrank
  -- there are no workers yet, so nothing stands behind what the run has told
  have hnone : r'.workers = [] := hw.trans (h.noWorkers (by omega))
  have htasks : r'.tasks = r.tasks ++ [r.taskOf hub f] := by
    unfold Run.tasks
    rw [hw, hq, List.map_append, ← List.append_assoc]
    rfl
  refine {
    id := hid.trans h.id
    names := ?_
    session := ?_
    queued := ?_
    consistent := fun w hm => absurd (hnone ▸ hm) (by simp)
    noTasks := fun h0 => absurd h0 (by omega)
    noWorkers := fun _ => hnone
    allQueued := fun h2 => absurd h2 (by omega)
    allSpawned := fun h3 => absurd h3 (by omega)
    allOver := fun h5 => absurd h5 (by omega)
    shape := ⟨[], [], ?_, Or.inl ⟨rfl, by omega⟩, ?_⟩ }
  · have hnames := h.names
    rw [hf, List.map_cons] at hnames
    rw [htasks, hf', List.map_append, List.append_assoc]
    exact hnames
  · intro t ht
    rw [htasks] at ht
    rcases List.mem_append.mp ht with hold | hnew
    · exact h.session t hold
    · rw [List.mem_singleton.mp hnew]
      exact h.id
  · intro q hm
    rw [hq] at hm
    rcases List.mem_append.mp hm with hold | hnew
    · exact h.queued q hold
    · rw [List.mem_singleton.mp hnew]
      exact ⟨rfl, rfl⟩
  · rw [hnone]
    exact .empty
  · rw [h.log_eq_opening (by omega), Run.opening_eq (by omega), Run.opening_eq (by omega), hid,
      htasks, List.map_append, List.append_nil, List.append_nil]
    rfl

/-- A worker begins its strand. -/
theorem spawned {task : FileTask} {spool : Spool} {queued : List (FileTask × Spool)}
    (h : Logged p r log) (hp : r.phase = .spawning) (hq : r.queued = (task, spool) :: queued)
    (hid : r'.id = r.id) (hp' : r'.phase = r.phase) (hf' : r'.files = r.files)
    (hq' : r'.queued = queued)
    (hw : r'.workers = r.workers ++ [({ task, spool } : Worker)]) :
    Logged p r' log := by
  have hrank : r.phase.rank = 2 := by rw [hp]; rfl
  have hrank' : r'.phase.rank = 2 := by rw [hp']; exact hrank
  obtain ⟨hstate, hreason⟩ := h.queued (task, spool) (by rw [hq]; exact List.mem_cons_self)
  -- the task moves from the front of the queue to the last worker: the order stays
  have htasks : r'.tasks = r.tasks := by
    unfold Run.tasks
    rw [hw, hq, hq', List.map_append, List.append_assoc]
    rfl
  obtain ⟨mid, hmid, hlog⟩ := h.unclosed (by omega) (by rw [hp]; simp)
  refine {
    id := hid.trans h.id
    names := by rw [htasks, hf']; exact h.names
    session := by rw [htasks]; exact h.session
    queued := ?_
    consistent := ?_
    noTasks := fun h0 => absurd h0 (by omega)
    noWorkers := fun h1 => absurd h1 (by omega)
    allQueued := fun _ => hf'.trans (h.allQueued (by omega))
    allSpawned := fun h3 => absurd h3 (by omega)
    allOver := fun h5 => absurd h5 (by omega)
    shape := ⟨mid, [], ?_, Or.inl ⟨rfl, by omega⟩, ?_⟩ }
  · intro q hm
    rw [hq'] at hm
    exact h.queued q (by rw [hq]; exact List.mem_cons_of_mem _ hm)
  · intro w hm
    rw [hw] at hm
    rcases List.mem_append.mp hm with hold | hnew
    · exact h.consistent w hold
    · rw [List.mem_singleton.mp hnew]
      exact Worker.consistent_new hstate hreason
  · rw [hw, List.map_append, List.map_singleton, Worker.told_new hstate]
    exact hmid.join
  · rw [hlog, List.append_nil, Run.opening_eq (by omega), Run.opening_eq (by omega), htasks, hid]

/-- **The last event comes when every worker has told everything.** -/
theorem submitted (h : Logged p r log) (hp : r.phase = .submitting) :
    Logged p
      { r with relay := r.relay.submit r.lastEvent Run.lastTicket, phase := .awaitingOutcome }
      (log ++ [r.lastEvent]) := by
  have hrank : r.phase.rank = 5 := by rw [hp]; rfl
  have hover := h.allOver (by omega)
  obtain ⟨mid, hmid, hlog⟩ := h.unclosed (by omega) (by rw [hp]; simp)
  exact {
    id := h.id
    names := h.names
    session := h.session
    queued := h.queued
    consistent := h.consistent
    noTasks := fun h0 => absurd h0 (by simp [RunPhase.rank])
    noWorkers := fun h1 => absurd h1 (by simp [RunPhase.rank])
    allQueued := fun _ => h.allQueued (by omega)
    allSpawned := fun _ => h.allSpawned (by omega)
    allOver := fun _ => hover
    shape := by
      refine ⟨mid, [r.lastEvent], hmid, Or.inr ⟨rfl, hover, Or.inl (Nat.le_refl 6)⟩, ?_⟩
      rw [hlog, Run.opening_eq (show 1 ≤ r.phase.rank by omega)]
      rfl }

/-- While a worker can go on, the run has not come to its last event. -/
theorem rank_of_step {hub : Hub} {i : Nat} {w : Worker} {s : WorkerStep} (h : Logged p r log)
    (hi : r.workers[i]? = some w) (hs : w.step? r.table hub.gates hub.spools = some s) :
    r.phase.rank < 5 := by
  have hm : w ∈ r.workers := List.mem_of_getElem? hi
  by_contra hge
  have hover := h.allOver (by omega) w hm
  rw [(Worker.step?_tells (h.consistent w hm) hs).running] at hover
  exact absurd hover (by simp)

/-- **A worker goes on with its strand.** -/
theorem worked {hub : Hub} {i : Nat} {w : Worker} {s : WorkerStep} (h : Logged p r log)
    (hi : r.workers[i]? = some w) (hs : w.step? r.table hub.gates hub.spools = some s)
    (hid : r'.id = r.id) (hp' : r'.phase = r.phase) (hf' : r'.files = r.files)
    (hq' : r'.queued = r.queued) (hw : r'.workers = r.workers.set i s.worker) :
    Logged p r' (log ++ s.event.toList) := by
  have hm : w ∈ r.workers := List.mem_of_getElem? hi
  have ht := Worker.step?_tells (h.consistent w hm) hs
  have hrank := h.rank_of_step hi hs
  -- what the step leaves alone of its task is the same of all tasks
  have hmap : ∀ {β : Type} (g : FileTask → β), g s.worker.task = g w.task →
      r'.tasks.map g = r.tasks.map g := by
    intro β g hg
    have hset : (r.workers.set i s.worker).map (g ∘ Worker.task)
        = r.workers.map (g ∘ Worker.task) := by
      rw [List.map_set, Function.comp_apply, hg]
      exact set_self (by rw [List.getElem?_map, hi]; rfl)
    unfold Run.tasks
    simp only [List.map_append, List.map_map]
    rw [hw, hset, hq']
  have hsession := hmap _ ht.alike.session
  have hannounce : r'.tasks.map Run.announce = r.tasks.map Run.announce := by
    refine hmap _ ?_
    unfold Run.announce
    rw [ht.alike.session, ht.alike.id, ht.alike.fileName]
  refine {
    id := hid.trans h.id
    names := by rw [hmap _ ht.alike.fileName, hf']; exact h.names
    session := ?_
    queued := by rw [hq']; exact h.queued
    consistent := ?_
    noTasks := fun h0 => hq'.trans (h.noTasks (hp' ▸ h0))
    noWorkers := ?_
    allQueued := fun h2 => hf'.trans (h.allQueued (hp' ▸ h2))
    allSpawned := fun h3 => hq'.trans (h.allSpawned (hp' ▸ h3))
    allOver := fun h5 => absurd h5 (by rw [hp']; omega)
    shape := ?_ }
  · intro t htm
    have hmem : t.session ∈ r'.tasks.map FileTask.session := List.mem_map_of_mem htm
    rw [hsession] at hmem
    obtain ⟨t₀, ht₀, heq⟩ := List.mem_map.mp hmem
    exact heq ▸ h.session t₀ ht₀
  · intro v hv
    rw [hw] at hv
    rcases List.mem_or_eq_of_mem_set hv with hold | hnew
    · exact h.consistent v hold
    · rw [hnew]
      exact ht.consistent
  · intro h1
    rw [h.noWorkers (hp' ▸ h1)] at hm
    exact absurd hm (by simp)
  · obtain ⟨mid, tail, hmid, htail, hlog⟩ := h.shape
    have hnil : tail = [] := by
      rcases htail with ⟨hnil, _⟩ | ⟨_, hover, _⟩
      · exact hnil
      · have hno := hover w hm
        rw [ht.running] at hno
        exact absurd hno (by simp)
    subst hnil
    refine ⟨mid ++ s.event.toList, [], ?_, Or.inl ⟨rfl, by rw [hp']; omega⟩, ?_⟩
    · rw [hw, List.map_set, ht.told]
      exact hmid.grows (by rw [List.getElem?_map, hi]; rfl) s.event.toList
    · have hopening : r'.opening = r.opening := by
        unfold Run.opening
        rw [hp', hannounce, hid]
      rw [hlog, hopening, List.append_nil, List.append_nil, List.append_assoc]

theorem applyStep_fields (r : Run) (hub : Hub) (i : Nat) (s : WorkerStep) :
    (r.applyStep hub i s).2.id = r.id ∧ (r.applyStep hub i s).2.phase = r.phase
      ∧ (r.applyStep hub i s).2.files = r.files ∧ (r.applyStep hub i s).2.queued = r.queued
      ∧ (r.applyStep hub i s).2.workers = r.workers.set i s.worker := by
  unfold Run.applyStep
  cases s.event <;> cases s.leaves <;> exact ⟨rfl, rfl, rfl, rfl, rfl⟩

/-- **Preserved by every step**, with what the step hands over. -/
theorem step {hub hub' : Hub} {a : Run.Action} {handed : List Event}
    {decides : List (Event × DeliveryOutcome)} (h : Logged p r log)
    (ha : r.Acted hub a handed decides hub' r') : Logged p r' (log ++ handed) := by
  cases ha with
  | announced hp => exact h.announced hp
  | queued hp hf => exact h.queuedNext hp hf rfl rfl rfl rfl rfl
  | allQueued hp hf =>
      rw [List.append_nil]
      have hrank : r.phase.rank = 1 := by rw [hp]; rfl
      exact h.rephase rfl rfl rfl rfl (by omega) (by rw [hp]; simp)
        (Or.inl (by rw [hp]; simp [RunPhase.rank])) (fun _ => hf)
        (fun h3 => absurd h3 (by simp [RunPhase.rank]))
        (fun h5 => absurd h5 (by simp [RunPhase.rank])) (fun _ => by simp [RunPhase.rank])
  | spawned hp hq =>
      rw [List.append_nil]
      exact h.spawned hp hq rfl rfl rfl rfl rfl
  | allSpawned hp hq =>
      rw [List.append_nil]
      have hrank : r.phase.rank = 2 := by rw [hp]; rfl
      exact h.rephase rfl rfl rfl rfl (by omega) (by rw [hp]; simp)
        (Or.inl (by rw [hp]; simp [RunPhase.rank])) (fun _ => h.allQueued (by omega))
        (fun _ => hq) (fun h5 => absurd h5 (by simp [RunPhase.rank]))
        (fun _ => by simp [RunPhase.rank])
  | passed hp _ =>
      rw [List.append_nil]
      have hrank : r.phase.rank = 3 ∧ r.phase ≠ .abandoned := by
        rcases hp with hp | hp <;> rw [hp] <;> simp [RunPhase.rank]
      exact h.advance 3 4 rfl rfl rfl rfl hrank.1 rfl hrank.2 (by omega) (by omega) (by omega)
        (by omega)
  | expired hp _ =>
      rw [List.append_nil]
      have hrank : r.phase.rank = 3 := by rw [hp]; rfl
      exact h.advance 3 3 rfl rfl rfl rfl hrank rfl (by rw [hp]; simp) (by omega) (by omega)
        (by omega) (by omega)
  | collected hp hall =>
      rw [List.append_nil]
      have hrank : r.phase.rank = 4 := by rw [hp]; rfl
      exact h.advance 4 5 rfl rfl rfl rfl hrank rfl (by rw [hp]; simp) (by omega) (by omega)
        (fun _ => hall) (by omega)
  | submitted hp => exact h.submitted hp
  | answered hp _ =>
      rw [List.append_nil]
      have hrank : r.phase.rank = 6 := by rw [hp]; rfl
      exact h.advance 6 7 rfl rfl rfl rfl hrank rfl (by rw [hp]; simp) (by omega) (by omega)
        (fun _ => h.allOver (by omega)) (by omega)
  | stopped hp =>
      rw [List.append_nil]
      have hrank : r.phase.rank = 7 := by rw [hp]; rfl
      exact h.advance 7 8 rfl rfl rfl rfl hrank rfl (by rw [hp]; simp) (by omega) (by omega)
        (fun _ => h.allOver (by omega)) (by omega)
  | returned hp _ =>
      rw [List.append_nil]
      have hrank : r.phase.rank = 8 := by rw [hp]; rfl
      exact h.advance 8 9 rfl rfl rfl rfl hrank rfl (by rw [hp]; simp) (by omega) (by omega)
        (fun _ => h.allOver (by omega)) (by omega)
  | decided _ _ _ _ => rw [List.append_nil]; exact h.relay _
  | begun _ _ _ _ _ => rw [List.append_nil]; exact h.relay _
  | suppressed _ _ _ _ _ => rw [List.append_nil]; exact h.relay _
  | halted _ _ _ _ => rw [List.append_nil]; exact h.relay _
  | drained _ _ _ _ => rw [List.append_nil]; exact h.relay _
  | @worked i w s hi hs =>
      obtain ⟨hid, hp', hf', hq', hw⟩ := applyStep_fields r hub i s
      exact h.worked hi hs hid hp' hf' hq' hw

/-! ## What the invariant says of the log -/

/-- A task of the session is announced as its line says. -/
theorem announces (h : Logged p r log) :
    r.tasks.map Run.announce = (r.tasks.map FileTask.line).map (Line.queued p.id) := by
  rw [List.map_map]
  refine List.map_congr_left ?_
  intro t ht
  show Run.announce t = Line.queued p.id t.line
  rw [← h.session t ht]
  rfl

theorem worker_session (h : Logged p r log) {w : Worker} (hw : w ∈ r.workers) :
    w.task.session = p.id :=
  h.session w.task (List.mem_append_left _ (List.mem_map_of_mem hw))

/-- With the last event the log is whole. -/
theorem whole_of_closed {mid : List Event} (h : Logged p r log)
    (hmid : Woven (r.workers.map Worker.told) mid)
    (hover : ∀ w ∈ r.workers, w.phase.isOver = true) (hr : 3 ≤ r.phase.rank)
    (hlog : log = r.opening ++ mid ++ [r.lastEvent]) :
    (r.workers.map (·.task.line)).map Line.fileName = p.files.map Submission.fileName
      ∧ WholeLog p.id (r.workers.map (·.task.line)) log := by
  have htasks : r.tasks = r.workers.map Worker.task := by
    unfold Run.tasks
    rw [h.allSpawned hr, List.map_nil, List.append_nil]
  refine ⟨?_, mid, ?_, ?_⟩
  · have hnames := h.names
    rw [h.allQueued (by omega), List.map_nil, List.append_nil, htasks, List.map_map] at hnames
    rw [List.map_map]
    exact hnames
  · have htold : r.workers.map Worker.told
        = (r.workers.map (·.task.line)).map (Line.triple p.id) := by
      rw [List.map_map]
      refine List.map_congr_left ?_
      intro w hw
      rw [(Worker.told_finished (h.consistent w hw) (hover w hw)).1, h.worker_session hw]
      rfl
    rw [← htold]
    exact hmid
  · have hlines : r.tasks.map FileTask.line = r.workers.map (·.task.line) := by
      rw [htasks, List.map_map]
      rfl
    rw [hlog, Run.opening_eq (by omega), h.announces, hlines, h.id]
    unfold Run.lastEvent
    rw [h.id]

/-- **Once the run has handed over its last event, the log is whole.** -/
theorem whole (h : Logged p r log) (hr : 6 ≤ r.phase.rank) :
    (r.workers.map (·.task.line)).map Line.fileName = p.files.map Submission.fileName
      ∧ WholeLog p.id (r.workers.map (·.task.line)) log := by
  obtain ⟨mid, tail, hmid, ⟨_, hlt⟩ | ⟨htail, hover, _⟩, hlog⟩ := h.shape
  · omega
  · rw [htail] at hlog
    exact h.whole_of_closed hmid hover (by omega) hlog

/-- What the workers have told can be completed to what they and those who have not begun
will tell, whatever that is. -/
theorem woven_complete {mid : List Event} (h : Logged p r log)
    (hmid : Woven (r.workers.map Worker.told) mid) (others : List Line) :
    ∃ more, Woven ((r.workers.map (·.task.line) ++ others).map (Line.triple p.id))
      (mid ++ more) := by
  -- each worker has told a beginning of its three events
  have hbegin : List.Forall₂ (· <+: ·) (r.workers.map Worker.told)
      (r.workers.map fun w => w.task.line.triple p.id) := by
    rw [List.forall₂_map_left_iff, List.forall₂_map_right_iff, List.forall₂_same]
    intro w hw
    rw [← h.worker_session hw]
    exact List.take_prefix _ _
  obtain ⟨more, hmore⟩ := hmid.complete hbegin
  refine ⟨more ++ (others.map (Line.triple p.id)).flatten, ?_⟩
  rw [List.map_append, List.map_map, ← List.append_assoc]
  exact hmore.extend _

/-- **At any time the log is a beginning of a whole one**, with a line for each file. -/
theorem prefix_whole (h : Logged p r log) : ∃ lines whole,
    lines.map Line.fileName = p.files.map Submission.fileName
      ∧ WholeLog p.id lines whole ∧ log <+: whole := by
  obtain ⟨mid, tail, hmid, ⟨htail, _⟩ | ⟨htail, hover, hr⟩, hlog⟩ := h.shape
  · -- the tasks that wait and the files without one are told of later
    let others := r.queued.map (·.1.line)
      ++ r.files.map fun f => { uuid := "", fileName := f.fileName, verdict := none }
    obtain ⟨more, hmore⟩ := h.woven_complete hmid others
    have hlines : r.workers.map (·.task.line) ++ others = r.tasks.map FileTask.line
        ++ r.files.map fun f => { uuid := "", fileName := f.fileName, verdict := none } := by
      unfold Run.tasks
      rw [List.map_append, List.map_map, List.map_map, List.append_assoc]
      rfl
    rw [htail, List.append_nil] at hlog
    rw [hlines] at hmore
    refine ⟨_, _, ?_, ⟨_, hmore, rfl⟩, ?_⟩
    · rw [List.map_append, List.map_map, List.map_map]
      exact h.names
    · rcases Nat.lt_or_ge r.phase.rank 2 with hlt | hge
      · -- only the run itself has told anything yet
        rw [h.log_eq_opening (by omega), List.append_assoc]
        refine List.IsPrefix.trans ?_ (List.prefix_append _ _)
        rcases Nat.eq_zero_or_pos r.phase.rank with hzero | hpos
        · rw [Run.opening_nil hzero]
          exact List.nil_prefix
        · rw [Run.opening_eq hpos, h.announces, h.id, List.map_append]
          exact List.prefix_append (_ :: _) _
      · rw [hlog, Run.opening_eq (by omega), h.announces, h.id, h.allQueued hge, List.map_nil,
          List.append_nil, ← List.append_assoc, List.append_assoc]
        exact List.prefix_append _ _
  · -- the last event is told already: the log is whole, even if the run was given up since
    rw [htail] at hlog
    have hr3 : 3 ≤ r.phase.rank := by
      rcases hr with h6 | hab
      · omega
      · rw [hab]
        exact Nat.le_refl 3
    obtain ⟨hnames, hwhole⟩ := h.whole_of_closed hmid hover hr3 hlog
    exact ⟨_, log, hnames, hwhole, List.prefix_rfl⟩

/-- No log is longer than a whole one. -/
theorem length_le (h : Logged p r log) : log.length ≤ 4 * p.files.length + 2 := by
  obtain ⟨lines, whole, hnames, hwhole, hbegin⟩ := h.prefix_whole
  have hle := hbegin.length_le
  rw [wholeLog_length hwhole, length_of_names hnames] at hle
  exact hle

end Logged

/-! ## The log in the course of a session -/

namespace Course

/-- The invariant of a course, before and after the session begins to run. -/
def Logs (p : Prepared) (c : Course) : Prop :=
  match c.stage with
  | .prepared q => q.id = p.id ∧ q.files = p.files ∧ c.log = []
  | .running r => Logged p r c.log

variable {p : Prepared} {c : Course}

theorem logs_of (p : Prepared) (hub : Hub) : (of p hub).Logs p := ⟨rfl, rfl, rfl⟩

theorem Logs.prepared (h : c.Logs p) {q : Prepared} (hs : c.stage = .prepared q) :
    q.id = p.id ∧ q.files = p.files ∧ c.log = [] := by
  unfold Logs at h
  rw [hs] at h
  exact h

theorem Logs.running (h : c.Logs p) {r : Run} (hs : c.stage = .running r) :
    Logged p r c.log := by
  unfold Logs at h
  rw [hs] at h
  exact h

/-- **Preserved by every move.** -/
theorem logs_moved {c' : Course} (h : c.Logs p) (hm : c.Moved c') : c'.Logs p := by
  cases hm with
  | same => exact h
  | arranged mirror table hs =>
      have hq := h.prepared hs
      exact hq
  | @started q hs =>
      obtain ⟨hid, hf, hlog⟩ := h.prepared hs
      show Logged p (Run.start q c.hub.now) c.log
      rw [hlog]
      exact Logged.init hid hf _
  | acted hs ha => exact (h.running hs).step ha
  | abandoned hs => exact (h.running hs).abandon _
  | tended mirror table hs => exact (h.running hs).tend mirror table
  | read m => exact h
  | asked _ => exact h
  | renewed => exact h
  | around _ _ => exact h

end Course
end Intake
