import Intake.Proofs.Accounts

/-!
# Sessions without their mirror

Nothing in a session reads its mirror. So every step commutes with forgetting it: what a step of a
session without its mirror comes to is what the step of the session comes to, without its mirror.
Whatever happens to a mirror, and whether there is one at all, shows in the mirror alone and in the
number of its copies.
-/

namespace Intake

/-! ## The relay -/

namespace Relay

/-- A relay without its mirror. -/
def unmirrored (r : Relay) : Relay :=
  { r with mirror := none }

variable (r : Relay)

theorem unmirrored_reflect (e : Event) : (r.reflect e).unmirrored = r.unmirrored := by
  obtain ⟨mirror, hm⟩ := r.reflect_eq e
  rw [hm]
  rfl

theorem reflect_unmirrored (e : Event) : r.unmirrored.reflect e = r.unmirrored := by
  unfold reflect
  split <;> rfl

theorem emit_unmirrored (e : Event) :
    r.unmirrored.emit e = ((r.emit e).1, (r.emit e).2.unmirrored) := by
  -- giving the mirror its copy leaves the room in the queue as it is
  have hroom : (r.reflect e).ended.isNone = r.unmirrored.ended.isNone
      ∧ (r.reflect e).hasRoom = r.unmirrored.hasRoom := by
    rw [← r.unmirrored_reflect e]
    exact ⟨rfl, rfl⟩
  unfold emit enqueue
  rw [reflect_unmirrored]
  rw [← hroom.1, ← hroom.2, ← r.unmirrored_reflect e]
  split <;> rfl

theorem give_unmirrored (c : RelayCommand) : r.unmirrored.give c = (r.give c).unmirrored := by
  have hroom : r.unmirrored.hasRoom = r.hasRoom := rfl
  unfold give
  rw [hroom]
  by_cases he : r.ended.isSome = true
  · rw [if_pos he]
    exact if_pos he
  · rw [if_neg he]
    refine (if_neg he).trans ?_
    split <;> rfl

theorem submit_unmirrored (e : Event) (ticket : Nat) :
    r.unmirrored.submit e ticket = (r.submit e ticket).unmirrored := by
  unfold submit
  rw [reflect_unmirrored, ← give_unmirrored, unmirrored_reflect]

theorem pop?_unmirrored :
    r.unmirrored.pop? = r.pop?.map fun (c, r) => (c, r.unmirrored) := by
  have hq : r.unmirrored.queue = r.queue := rfl
  have hw : r.unmirrored.waiting = r.waiting := rfl
  unfold pop?
  rw [hq, hw]
  cases r.queue with
  | nil => rfl
  | cons c queue => cases r.waiting <;> rfl

theorem begin_unmirrored (c : RelayCommand) : r.unmirrored.begin c = (r.begin c).unmirrored := by
  have hf : r.unmirrored.filter = r.filter := rfl
  unfold begin
  rw [hf]
  cases c.event? with
  | none => rfl
  | some e => dsimp only; split <;> rfl

/-- **The relay does not look at its mirror.** -/
theorem step?_unmirrored (registry : Registry) (now : Nat) :
    r.unmirrored.step? registry now
      = (r.step? registry now).map fun (r, registry) => (r.unmirrored, registry) := by
  have he : r.unmirrored.ended = r.ended := rfl
  have hc : r.unmirrored.current = r.current := rfl
  unfold step?
  rw [he, hc]
  by_cases hend : r.ended.isSome = true
  · rw [if_pos hend, if_pos hend]
    rfl
  · rw [if_neg hend, if_neg hend]
    cases r.current with
    | some c =>
        dsimp only
        cases c.event? with
        | none => rfl
        | some e =>
            show (registry.deliver? r.handle e now r.deadline).map _ = Option.map _ (Option.map _ _)
            rw [Option.map_map]
            rfl
    | none =>
        dsimp only
        rw [pop?_unmirrored]
        cases r.pop? with
        | some x =>
            obtain ⟨c, r'⟩ := x
            exact congrArg (fun r => some (r, registry)) (r'.begin_unmirrored c)
        | none =>
            show (if r.givers = 0 then _ else _) = Option.map _ (if r.givers = 0 then _ else _)
            split <;> rfl

theorem decides_unmirrored (registry : Registry) (now : Nat) :
    r.unmirrored.decides registry now = r.decides registry now := by
  have hc : r.unmirrored.current = r.current := rfl
  unfold decides
  rw [hc]
  cases r.current with
  | some c => rfl
  | none =>
      dsimp only
      rw [pop?_unmirrored, Option.bind_map]
      rfl

end Relay

/-! ## The run -/

namespace Run

/-- A run without its mirror. -/
def unmirrored (r : Run) : Run :=
  { r with relay := r.relay.unmirrored }

variable (r : Run) (hub : Hub)

theorem emit_unmirrored (e : Event) : r.unmirrored.emit e = (r.emit e).unmirrored := by
  show ({ r with relay := (r.relay.unmirrored.emit e).2 } : Run) = _
  rw [Relay.emit_unmirrored]
  rfl

theorem queueNext_unmirrored : r.unmirrored.queueNext hub
    = ((r.queueNext hub).1, (r.queueNext hub).2.unmirrored) := by
  have hf : r.unmirrored.files = r.files := rfl
  unfold queueNext
  rw [hf]
  cases r.files with
  | nil => rfl
  | cons f files => exact congrArg (Prod.mk _) (emit_unmirrored { r with files, queued := _ } _)

theorem spawnNext_unmirrored : r.unmirrored.spawnNext = r.spawnNext.unmirrored := by
  have hq : r.unmirrored.queued = r.queued := rfl
  unfold spawnNext
  rw [hq]
  cases r.queued <;> rfl

theorem applyStep_unmirrored (i : Nat) (s : WorkerStep) : r.unmirrored.applyStep hub i s
    = ((r.applyStep hub i s).1, (r.applyStep hub i s).2.unmirrored) := by
  unfold applyStep
  cases s.event with
  | none => cases s.leaves <;> rfl
  | some e =>
      have hemit := emit_unmirrored { r with workers := r.workers.set i s.worker } e
      have hemit' : emit { r.unmirrored with workers := r.unmirrored.workers.set i s.worker } e
          = _ := hemit
      dsimp only [emit?]
      rw [hemit']
      cases s.leaves <;> rfl

theorem advance?_unmirrored : r.unmirrored.advance? hub
    = (r.advance? hub).map fun (hub, r) => (hub, r.unmirrored) := by
  have hphase : r.unmirrored.phase = r.phase := rfl
  unfold advance?
  rw [hphase]
  -- what a phase looks at is the same with and without the mirror
  cases hp : r.phase with
  | announcing =>
      exact congrArg (fun r => some (hub, r)) (emit_unmirrored { r with phase := .queueing } _)
  | queueing => exact congrArg some (r.queueNext_unmirrored hub)
  | spawning => exact congrArg (fun r => some (hub, r)) r.spawnNext_unmirrored
  | waiting =>
      have hb : r.unmirrored.barrier = r.barrier := rfl
      have hd : r.unmirrored.deadline = r.deadline := rfl
      dsimp only
      rw [hb, hd]
      cases r.barrier.passed? with
      | some n => rfl
      | none => dsimp only; split <;> rfl
  | overdue =>
      show Option.map _ r.barrier.passed? = Option.map _ (Option.map _ r.barrier.passed?)
      rw [Option.map_map]
      rfl
  | collecting =>
      show (if r.workers.all _ then _ else _) = Option.map _ (if r.workers.all _ then _ else _)
      split <;> rfl
  | submitting =>
      have hs := r.relay.submit_unmirrored r.lastEvent lastTicket
      exact congrArg (fun relay => some (hub, { r with relay, phase := .awaitingOutcome })) hs
  | awaitingOutcome =>
      show Option.map _ (r.relay.answer? lastTicket) = Option.map _ (Option.map _ _)
      rw [Option.map_map]
      rfl
  | stopping =>
      have hg := r.relay.give_unmirrored .stop
      exact congrArg (fun relay => some (hub, { r with relay, phase := .awaitingStop })) hg
  | awaitingStop =>
      show (if r.relay.ended.isSome then _ else _)
        = Option.map _ (if r.relay.ended.isSome then _ else _)
      split <;> rfl
  | returned => rfl
  | abandoned => rfl

/-- **No party of a session looks at the mirror.** -/
theorem act?_unmirrored (a : Action) : r.unmirrored.act? a hub
    = (r.act? a hub).map fun (hub, r) => (hub, r.unmirrored) := by
  cases a with
  | run => exact r.advance?_unmirrored hub
  | relay =>
      show (r.relay.unmirrored.step? hub.registry hub.now).map _ = Option.map _ (Option.map _ _)
      rw [Relay.step?_unmirrored, Option.map_map, Option.map_map]
      rfl
  | worker i =>
      have hw : r.unmirrored.workers = r.workers := rfl
      have ht : r.unmirrored.table = r.table := rfl
      dsimp only [act?]
      rw [hw, ht]
      cases r.workers[i]? with
      | none => rfl
      | some w =>
          dsimp only
          rw [Option.map_map]
          exact congrArg (fun f => Option.map f _) (funext (r.applyStep_unmirrored hub i))

theorem decides_unmirrored (a : Action) : r.unmirrored.decides hub a = r.decides hub a := by
  cases a with
  | relay => exact r.relay.decides_unmirrored hub.registry hub.now
  | run => rfl
  | worker i => rfl

end Run

/-! ## The session -/

/-- A stage without its mirror. -/
def Stage.unmirrored : Stage → Stage
  | .prepared p => .prepared { p with mirror := none }
  | .running r => .running r.unmirrored

theorem Stage.unmirrored_twice (s : Stage) : s.unmirrored.unmirrored = s.unmirrored := by
  cases s <;> rfl

end Intake
