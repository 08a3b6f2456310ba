import Intake.Worker

/-!
# The histories of a file task

A task is asked for steps in any order, by its worker or by anybody else. `Step.attempt_eq` says
all that a step does: if it leads on from the state in which the task is, the task takes it and
there is one event; if not, it is refused. So what a task has told follows the one path there is,
up to the state in which it is (`TaskState.trails`), and a result is recorded once.

`Step.inPlace` is a step taken on a task that is changed in place, field after field, where a
change that was made before a refusal would stay. `Step.inPlace_eq` says that there is none.
-/

namespace Intake

namespace TaskState

/-- What can have been told of a task in a state, after that it was queued. -/
def trails : TaskState → List (List EventState)
  | queued => [[]]
  | processingStarted => [[.fileProcessingStarted]]
  | processed => [[.fileProcessingStarted, .fileProcessed]]
  | processingError => [[.fileProcessingStarted, .fileProcessingError]]
  | completed =>
    [[.fileProcessingStarted, .fileProcessed, .fileCompleted],
      [.fileProcessingStarted, .fileProcessingError, .fileCompleted]]

theorem trails_allows {s next : TaskState} (h : s.allows next = true) {l : List EventState}
    (hl : l ∈ s.trails) : l ++ [next.event] ∈ next.trails := by
  match s, next, h with
  | queued, processingStarted, _ =>
      cases List.mem_singleton.mp hl
      decide
  | processingStarted, processed, _ =>
      cases List.mem_singleton.mp hl
      decide
  | processingStarted, processingError, _ =>
      cases List.mem_singleton.mp hl
      decide
  | processed, completed, _ =>
      cases List.mem_singleton.mp hl
      decide
  | processingError, completed, _ =>
      cases List.mem_singleton.mp hl
      decide

/-- Only a task that was started can be judged. -/
theorem started_of_allows {s next : TaskState} (h : s.allows next = true)
    (hn : next = processed ∨ next = processingError) : s = processingStarted := by
  cases s with
  | processingStarted => rfl
  | _ => rcases hn with rfl | rfl <;> exact absurd h (by decide)

/-- Only a task that was queued can start. -/
theorem queued_of_allows {s next : TaskState} (h : s.allows next = true)
    (hn : next = queued ∨ next = processingStarted) : s = queued := by
  cases s with
  | queued => rfl
  | _ => rcases hn with rfl | rfl <;> exact absurd h (by decide)

/-- Every trail goes on to a whole one. -/
theorem trails_whole {s : TaskState} {l : List EventState} (hl : l ∈ s.trails) :
    ∃ path ∈ completed.trails, l <+: path := by
  cases s with
  | completed => exact ⟨l, hl, List.prefix_rfl⟩
  | processingError =>
      cases List.mem_singleton.mp hl
      exact ⟨[.fileProcessingStarted, .fileProcessingError, .fileCompleted], by decide, by decide⟩
  | _ =>
      cases List.mem_singleton.mp hl
      exact ⟨[.fileProcessingStarted, .fileProcessed, .fileCompleted], by decide, by decide⟩

/-- A trail ends with the state that it leads to. -/
theorem trails_last {s : TaskState} {l : List EventState} (hl : l ∈ s.trails) :
    (EventState.fileQueued :: l).getLast? = some s.event := by
  cases s with
  | completed =>
      rcases List.mem_cons.mp hl with rfl | hl
      · rfl
      · cases List.mem_singleton.mp hl
        rfl
  | _ =>
      cases List.mem_singleton.mp hl
      rfl

end TaskState

namespace FileTask

/-! ## Steps -/

/-- A step that a task can be asked for. -/
inductive Step where
  | moveTo (next : TaskState)
  | succeed (content : String)
  | fail (failure : TaskFailure)
  deriving DecidableEq, Repr

namespace Step

/-- The state to which a step leads. -/
def target : Step → TaskState
  | moveTo next => next
  | succeed _ => .processed
  | fail _ => .processingError

/-- The reason that a step gives. -/
def reason? : Step → Option String
  | fail failure => some failure.message
  | _ => none

/-- Asks a task for a step. -/
def attempt (s : Step) (t : FileTask) : Except TransitionError (FileTask × Event) :=
  match s with
  | moveTo next => t.transition next
  | succeed content => t.succeed content
  | fail failure => t.fail failure

/-- The task after a step. -/
def done (s : Step) (t : FileTask) : FileTask :=
  match s with
  | moveTo next => { t with state := next }
  | succeed content =>
    { t with state := .processed, outcome := some .success, content := some content }
  | fail failure =>
    { t with
      state := .processingError
      outcome := some failure.outcome
      reason := some failure.message }

/-- The event that announces a step. -/
def event (s : Step) (t : FileTask) : Event :=
  { Event.ofTask t.session t.id s.target.event t.fileName with reason := s.reason? }

/-- **All that a step does.** -/
theorem attempt_eq (s : Step) (t : FileTask) :
    s.attempt t
      = if t.state.allows s.target then .ok (s.done t, s.event t)
        else .error ⟨t.state, s.target⟩ := by
  by_cases h : t.state.allows s.target = true
  · rw [if_pos h]
    have hmove : t.transition s.target = .ok (_, _) := if_pos h
    cases s with
    | moveTo next => exact hmove
    | succeed content =>
        unfold attempt FileTask.succeed
        rw [show t.transition .processed = _ from hmove]
        rfl
    | fail failure =>
        unfold attempt FileTask.fail
        rw [show t.transition .processingError = _ from hmove]
        rfl
  · rw [if_neg h]
    have hmove : t.transition s.target = .error ⟨t.state, s.target⟩ := if_neg h
    cases s with
    | moveTo next => exact hmove
    | succeed content =>
        unfold attempt FileTask.succeed
        rw [show t.transition .processed = _ from hmove]
    | fail failure =>
        unfold attempt FileTask.fail
        rw [show t.transition .processingError = _ from hmove]

@[simp] theorem done_state (s : Step) (t : FileTask) : (s.done t).state = s.target := by
  cases s <;> rfl

theorem attempt_ok {s : Step} {t : FileTask} (h : t.state.allows s.target = true) :
    s.attempt t = .ok (s.done t, s.event t) := by
  rw [attempt_eq, if_pos h]

theorem attempt_error {s : Step} {t : FileTask} (h : t.state.allows s.target = false) :
    s.attempt t = .error ⟨t.state, s.target⟩ := by
  rw [attempt_eq, if_neg (by rw [h]; decide)]

/-! ## Steps in place -/

/-- Takes a step on a task that is changed in place. -/
def inPlace (s : Step) : EStateM TransitionError FileTask Event :=
  match s with
  | moveTo next => move next
  | succeed content => do
    let e ← move .processed
    modify fun t => { t with outcome := some .success }
    modify fun t => { t with content := some content }
    return e
  | fail failure => do
    let e ← move .processingError
    modify fun t => { t with outcome := some failure.outcome }
    modify fun t => { t with reason := some failure.message }
    return e.because failure.message
where
  /-- Changes the state, if that is allowed. -/
  move (next : TaskState) : EStateM TransitionError FileTask Event := do
    let t ← get
    unless t.state.allows next do
      throw ⟨t.state, next⟩
    set { t with state := next }
    return (← get).currentEvent

theorem move_eq (next : TaskState) (t : FileTask) :
    inPlace.move next t
      = if t.state.allows next then
          .ok ({ t with state := next } : FileTask).currentEvent { t with state := next }
        else .error ⟨t.state, next⟩ t := by
  show (if t.state.allows next then _ else _ : EStateM TransitionError FileTask Event) t = _
  by_cases h : t.state.allows next = true
  · rw [if_pos h, if_pos h]
    rfl
  · rw [if_neg h, if_neg h]
    rfl

theorem inPlace_succeed (content : String) (t : FileTask) :
    (succeed content).inPlace t
      = match inPlace.move .processed t with
        | .ok e t' => .ok e { t' with outcome := some .success, content := some content }
        | .error x t' => .error x t' := by
  show EStateM.bind (inPlace.move .processed) _ t = _
  unfold EStateM.bind
  cases inPlace.move .processed t <;> rfl

theorem inPlace_fail (failure : TaskFailure) (t : FileTask) :
    (fail failure).inPlace t
      = match inPlace.move .processingError t with
        | .ok e t' =>
          .ok (e.because failure.message)
            { t' with outcome := some failure.outcome, reason := some failure.message }
        | .error x t' => .error x t' := by
  show EStateM.bind (inPlace.move .processingError) _ t = _
  unfold EStateM.bind
  cases inPlace.move .processingError t <;> rfl

/-- In place or not, a step comes to the same: a refused one leaves the task as it was. -/
theorem inPlace_eq (s : Step) (t : FileTask) :
    s.inPlace t
      = match s.attempt t with
        | .ok (t', e) => .ok e t'
        | .error x => .error x t := by
  have hmove := move_eq s.target t
  rw [attempt_eq]
  by_cases h : t.state.allows s.target = true
  · rw [if_pos h] at hmove ⊢
    cases s with
    | moveTo next => exact hmove
    | succeed content =>
        rw [inPlace_succeed, show inPlace.move .processed t = _ from hmove]
        rfl
    | fail failure =>
        rw [inPlace_fail, show inPlace.move .processingError t = _ from hmove]
        rfl
  · rw [if_neg h] at hmove ⊢
    cases s with
    | moveTo next => exact hmove
    | succeed content =>
        rw [inPlace_succeed, show inPlace.move .processed t = _ from hmove]
    | fail failure =>
        rw [inPlace_fail, show inPlace.move .processingError t = _ from hmove]

end Step

/-! ## Histories -/

/-- The task of a file that was just handed in. -/
def fresh (session id fileName : String) (declared : Option String) : FileTask :=
  { session, id, fileName, declared }

/-- What can be asked of a task. -/
inductive Call where
  | step (s : Step)
  | detect (mime : Option String)
  deriving DecidableEq, Repr

/-- The task after a call, and the event, if there is one. -/
def take (t : FileTask) : Call → FileTask × Option Event
  | .step s => Worker.apply t (s.attempt t)
  | .detect mime => (t.detect mime, none)

/-- The task after some calls. -/
def play (t : FileTask) : List Call → FileTask
  | [] => t
  | c :: cs => (t.take c).1.play cs

/-- The events of some calls, in order. -/
def told (t : FileTask) : List Call → List Event
  | [] => []
  | c :: cs => (t.take c).2.toList ++ (t.take c).1.told cs

theorem play_append (t : FileTask) (cs ds : List Call) :
    t.play (cs ++ ds) = (t.play cs).play ds := by
  induction cs generalizing t with
  | nil => rfl
  | cons c cs ih => exact ih (t.take c).1

theorem told_append (t : FileTask) (cs ds : List Call) :
    t.told (cs ++ ds) = t.told cs ++ (t.play cs).told ds := by
  induction cs generalizing t with
  | nil => rfl
  | cons c cs ih =>
      show (t.take c).2.toList ++ (t.take c).1.told (cs ++ ds) = _
      rw [ih (t.take c).1, ← List.append_assoc]
      rfl

theorem take_of_allows {t : FileTask} {s : Step} (h : t.state.allows s.target = true) :
    t.take (.step s) = (s.done t, some (s.event t)) :=
  congrArg (Worker.apply t) (Step.attempt_ok h)

theorem take_of_refused {t : FileTask} {s : Step} (h : t.state.allows s.target = false) :
    t.take (.step s) = (t, none) :=
  congrArg (Worker.apply t) (Step.attempt_error h)

/-- **A refused step** says where the task is, and leaves it as it was. -/
theorem Step.refused {s : Step} {t : FileTask} {x : TransitionError}
    (h : s.attempt t = .error x) :
    t.state.allows s.target = false ∧ x = ⟨t.state, s.target⟩ ∧ s.inPlace t = .error x t
      ∧ t.take (.step s) = (t, none) := by
  rw [Step.inPlace_eq, h]
  cases hs : t.state.allows s.target with
  | true =>
      rw [Step.attempt_ok hs] at h
      cases h
  | false =>
      refine ⟨rfl, ?_, rfl, take_of_refused hs⟩
      rw [Step.attempt_error hs] at h
      cases h
      rfl

/-- **A step that is taken** brings the task where it leads, with one event. -/
theorem Step.taken {s : Step} {t t' : FileTask} {e : Event} (h : s.attempt t = .ok (t', e)) :
    t.state.allows s.target = true ∧ t'.state = s.target ∧ e = s.event t ∧ s.inPlace t = .ok e t'
      ∧ t.take (.step s) = (t', some e) := by
  rw [Step.inPlace_eq, h]
  cases hs : t.state.allows s.target with
  | true =>
      rw [Step.attempt_ok hs] at h
      cases h
      exact ⟨rfl, Step.done_state s t, rfl, rfl, take_of_allows hs⟩
  | false =>
      rw [Step.attempt_error hs] at h
      cases h

/-- What holds of a task of which some stages were told. -/
structure Coherent (t : FileTask) (stages : List EventState) : Prop where
  trail : stages ∈ t.state.trails
  /-- A task that is not yet processed has no result. -/
  early : t.state = .queued ∨ t.state = .processingStarted → t.outcome = none
  content : t.content.isSome ↔ t.outcome = some .success
  reason : t.reason.isSome ↔ t.outcome = some .processingError ∨ t.outcome = some .emptyContent

theorem coherent_fresh (session id fileName : String) (declared : Option String) :
    (fresh session id fileName declared).Coherent [] where
  trail := List.mem_singleton.mpr rfl
  early _ := rfl
  content := by simp [fresh]
  reason := by simp [fresh]

/-- What stays of a task: whose it is, and the result, if there is one. -/
structure Keeps (t t' : FileTask) : Prop where
  session : t'.session = t.session
  id : t'.id = t.id
  fileName : t'.fileName = t.fileName
  result : t.outcome.isSome →
    t'.outcome = t.outcome ∧ t'.content = t.content ∧ t'.reason = t.reason

theorem Keeps.refl (t : FileTask) : t.Keeps t := ⟨rfl, rfl, rfl, fun _ => ⟨rfl, rfl, rfl⟩⟩

theorem Keeps.trans {t t' t'' : FileTask} (h : t.Keeps t') (h' : t'.Keeps t'') : t.Keeps t'' where
  session := h'.session.trans h.session
  id := h'.id.trans h.id
  fileName := h'.fileName.trans h.fileName
  result ho := by
    obtain ⟨houtcome, hcontent, hreason⟩ := h.result ho
    obtain ⟨houtcome', hcontent', hreason'⟩ := h'.result (by rw [houtcome]; exact ho)
    exact ⟨houtcome'.trans houtcome, hcontent'.trans hcontent, hreason'.trans hreason⟩

theorem failure_outcome (f : TaskFailure) :
    f.outcome = .processingError ∨ f.outcome = .emptyContent := by
  cases f with
  | emptyContent => exact Or.inr rfl
  | _ => exact Or.inl rfl

/-- **A step that leads on** keeps a task coherent, and whatever result it has. -/
theorem Coherent.done {t : FileTask} {stages : List EventState} (h : t.Coherent stages) {s : Step}
    (hs : t.state.allows s.target = true) :
    (s.done t).Coherent (stages ++ [s.target.event]) ∧ t.Keeps (s.done t) := by
  have htrail : stages ++ [s.target.event] ∈ (s.done t).state.trails := by
    rw [Step.done_state]
    exact TaskState.trails_allows hs h.trail
  -- A step that brings a result finds none.
  have hnew : s.target = .processed ∨ s.target = .processingError → t.outcome = none :=
    fun hn => h.early (Or.inr (TaskState.started_of_allows hs hn))
  cases s with
  | moveTo next =>
      have hearly : next = .queued ∨ next = .processingStarted → t.outcome = none :=
        fun hn => h.early (Or.inl (TaskState.queued_of_allows hs hn))
      exact ⟨⟨htrail, hearly, h.content, h.reason⟩, ⟨rfl, rfl, rfl, fun _ => ⟨rfl, rfl, rfl⟩⟩⟩
  | succeed content =>
      have hnone := hnew (Or.inl rfl)
      have hreason : t.reason = none := by simpa [hnone] using h.reason
      exact ⟨⟨htrail, by simp [Step.done], by simp [Step.done], by simp [Step.done, hreason]⟩,
        ⟨rfl, rfl, rfl, fun ho => absurd ho (by simp [hnone])⟩⟩
  | fail failure =>
      have hnone := hnew (Or.inr rfl)
      have hcontent : t.content = none := by simpa [hnone] using h.content
      refine ⟨⟨htrail, by simp [Step.done], ?_, ?_⟩,
        ⟨rfl, rfl, rfl, fun ho => absurd ho (by simp [hnone])⟩⟩
      · rcases failure_outcome failure with ho | ho <;> simp [Step.done, hcontent, ho]
      · rcases failure_outcome failure with ho | ho <;> simp [Step.done, ho]

/-- **What any call leaves of a task**: a coherent one, with whatever result there was. -/
theorem Coherent.take {t : FileTask} {stages : List EventState} (h : t.Coherent stages)
    (c : Call) :
    (t.take c).1.Coherent (stages ++ (t.take c).2.toList.map Event.state)
      ∧ t.Keeps (t.take c).1 := by
  cases c with
  | detect mime =>
      rw [show stages ++ (t.take (.detect mime)).2.toList.map Event.state = stages from
        List.append_nil stages]
      exact ⟨⟨h.trail, h.early, h.content, h.reason⟩, ⟨rfl, rfl, rfl, fun _ => ⟨rfl, rfl, rfl⟩⟩⟩
  | step s =>
      cases hs : t.state.allows s.target with
      | true =>
          rw [take_of_allows hs]
          exact h.done hs
      | false =>
          rw [take_of_refused hs]
          rw [show stages ++ (none : Option Event).toList.map Event.state = stages from
            List.append_nil stages]
          exact ⟨h, .refl t⟩

/-- **What any calls leave of a task.** -/
theorem Coherent.play {t : FileTask} {stages : List EventState} (h : t.Coherent stages)
    (cs : List Call) :
    (t.play cs).Coherent (stages ++ (t.told cs).map Event.state) ∧ t.Keeps (t.play cs) := by
  induction cs generalizing t stages with
  | nil =>
      rw [show stages ++ (t.told []).map Event.state = stages from List.append_nil stages]
      exact ⟨h, .refl t⟩
  | cons c cs ih =>
      obtain ⟨hc, hk⟩ := h.take c
      obtain ⟨hcs, hks⟩ := ih hc
      rw [List.append_assoc, ← List.map_append] at hcs
      exact ⟨hcs, hk.trans hks⟩

/-- A call that is added to others. -/
theorem play_snoc (t : FileTask) (cs : List Call) (c : Call) :
    t.play (cs ++ [c]) = ((t.play cs).take c).1 := play_append t cs [c]

theorem told_snoc (t : FileTask) (cs : List Call) (c : Call) :
    t.told (cs ++ [c]) = t.told cs ++ ((t.play cs).take c).2.toList := by
  rw [told_append]
  exact congrArg _ (List.append_nil _)

/-- What is told of a task, from being queued to the end. -/
def paths : List (List EventState) :=
  [[.fileQueued, .fileProcessingStarted, .fileProcessed, .fileCompleted],
    [.fileQueued, .fileProcessingStarted, .fileProcessingError, .fileCompleted]]

/-- What holds of a task after some calls. -/
structure History (t₀ : FileTask) (cs : List Call) : Prop where
  /-- A step that is refused names the state in which the task is, and leaves the task as it
  is, also one that is changed in place. -/
  refused : ∀ s x, s.attempt (t₀.play cs) = .error x →
    (t₀.play cs).state.allows s.target = false
      ∧ x = ⟨(t₀.play cs).state, s.target⟩
      ∧ s.inPlace (t₀.play cs) = .error x (t₀.play cs)
      ∧ t₀.play (cs ++ [.step s]) = t₀.play cs
      ∧ t₀.told (cs ++ [.step s]) = t₀.told cs
  /-- A step that is taken gives one event, which is that of the new state. -/
  accepted : ∀ s t e, s.attempt (t₀.play cs) = .ok (t, e) →
    (t₀.play cs).state.allows s.target = true
      ∧ t.state = s.target
      ∧ e = { Event.ofTask t₀.session t₀.id t.state.event t₀.fileName with reason := s.reason? }
      ∧ s.inPlace (t₀.play cs) = .ok e t
      ∧ t₀.play (cs ++ [.step s]) = t
      ∧ t₀.told (cs ++ [.step s]) = t₀.told cs ++ [e]
  /-- The detected type is no step. -/
  detected : ∀ mime,
    t₀.play (cs ++ [.detect mime]) = { t₀.play cs with detected := mime }
      ∧ t₀.told (cs ++ [.detect mime]) = t₀.told cs
  /-- What was told is the beginning of a path. -/
  path : ∃ path ∈ paths, (t₀.currentEvent :: t₀.told cs).map Event.state <+: path
  /-- It ends with the state in which the task is. -/
  last : ((t₀.currentEvent :: t₀.told cs).map Event.state).getLast?
    = some (t₀.play cs).state.event
  few : (t₀.told cs).length ≤ 3
  content : (t₀.play cs).content.isSome ↔ (t₀.play cs).outcome = some .success
  reason : (t₀.play cs).reason.isSome
    ↔ (t₀.play cs).outcome = some .processingError
      ∨ (t₀.play cs).outcome = some .emptyContent
  apart : ¬ ((t₀.play cs).content.isSome ∧ (t₀.play cs).reason.isSome)
  /-- A result stays, whatever is asked of the task later on. -/
  outcome_stays : ∀ ds, (t₀.play cs).outcome.isSome →
    (t₀.play (cs ++ ds)).outcome = (t₀.play cs).outcome
  reason_stays : ∀ ds, (t₀.play cs).reason.isSome →
    (t₀.play (cs ++ ds)).reason = (t₀.play cs).reason
  content_stays : ∀ ds, (t₀.play cs).content.isSome →
    (t₀.play (cs ++ ds)).content = (t₀.play cs).content

namespace Coherent

variable {t : FileTask} {stages : List EventState}

/-- What was told of a coherent task, with its being queued, is the beginning of a path. -/
theorem path (h : t.Coherent stages) : ∃ path ∈ paths, .fileQueued :: stages <+: path := by
  obtain ⟨whole, hwhole, hpre⟩ := TaskState.trails_whole h.trail
  refine ⟨.fileQueued :: whole, ?_, List.cons_prefix_cons.mpr ⟨rfl, hpre⟩⟩
  simpa [TaskState.trails, paths] using hwhole

theorem last (h : t.Coherent stages) :
    (EventState.fileQueued :: stages).getLast? = some t.state.event :=
  TaskState.trails_last h.trail

theorem few (h : t.Coherent stages) : stages.length ≤ 3 := by
  obtain ⟨path, hpath, hpre⟩ := h.path
  have hle := hpre.length_le
  have h4 : path.length = 4 := by
    rcases List.mem_cons.mp hpath with rfl | hpath
    · rfl
    · rw [List.mem_singleton.mp hpath]
      rfl
  rw [h4, List.length_cons] at hle
  omega

theorem outcome_of_content (h : t.Coherent stages) (hc : t.content.isSome) : t.outcome.isSome := by
  rw [h.content.mp hc]
  rfl

theorem outcome_of_reason (h : t.Coherent stages) (hr : t.reason.isSome) : t.outcome.isSome := by
  rcases h.reason.mp hr with ho | ho <;> rw [ho] <;> rfl

theorem apart (h : t.Coherent stages) : ¬ (t.content.isSome ∧ t.reason.isSome) := by
  rintro ⟨hc, hr⟩
  rcases h.reason.mp hr with ho | ho <;> exact absurd (h.content.mp hc) (by rw [ho]; decide)

end Coherent

/-- **The history of a task**, whatever is asked of it and in whatever order. -/
theorem task_history (session id fileName : String) (declared : Option String)
    (cs : List Call) : (fresh session id fileName declared).History cs := by
  generalize ht : fresh session id fileName declared = t₀
  have h₀ : t₀.Coherent [] := ht ▸ coherent_fresh session id fileName declared
  have hqueued : t₀.currentEvent.state = .fileQueued := ht ▸ rfl
  obtain ⟨h, hk⟩ := h₀.play cs
  rw [List.nil_append] at h
  have hstays := fun ds => (h.play ds).2.result
  exact {
    refused := fun s x hx => by
      obtain ⟨hs, hx, hplace, htake⟩ := Step.refused hx
      rw [play_snoc, told_snoc, htake]
      exact ⟨hs, hx, hplace, rfl, List.append_nil _⟩
    accepted := fun s t e ht => by
      obtain ⟨hs, hstate, he, hplace, htake⟩ := Step.taken ht
      rw [play_snoc, told_snoc, htake]
      refine ⟨hs, hstate, ?_, hplace, rfl, rfl⟩
      rw [he, hstate, ← hk.session, ← hk.id, ← hk.fileName]
      rfl
    detected := fun mime => by
      rw [play_snoc, told_snoc]
      exact ⟨rfl, List.append_nil _⟩
    path := by
      rw [List.map_cons, hqueued]
      exact h.path
    last := by
      rw [List.map_cons, hqueued]
      exact h.last
    few := by simpa using h.few
    content := h.content
    reason := h.reason
    apart := h.apart
    outcome_stays := fun ds ho => by
      rw [play_append]
      exact (hstays ds ho).1
    reason_stays := fun ds hr => by
      rw [play_append]
      exact (hstays ds (h.outcome_of_reason hr)).2.2
    content_stays := fun ds hc => by
      rw [play_append]
      exact (hstays ds (h.outcome_of_content hc)).2.1 }

end FileTask
end Intake
