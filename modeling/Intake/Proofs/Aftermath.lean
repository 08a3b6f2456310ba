import Intake.Proofs.Closure
import Intake.Proofs.Deadline

/-!
# After a run is over

When a run has returned, or was given up, its workers and its relay go on by themselves. What
they have left is bounded by `Run.toGo`: the relay takes at most two steps for each command in its
queue, and a worker whose step adds a command counts three for each of its steps. So they come to
a halt, and where they do the workers have finished and the relay has ended.
-/

namespace Intake

/-- How many steps a worker has left at most. -/
def WorkerPhase.left : WorkerPhase → Nat
  | ready => 6
  | opening => 5
  | reading _ _ _ => 4
  | judging _ => 3
  | closing => 2
  | leaving => 1
  | finished | lost => 0

/-- How many steps some workers have left at most. -/
def workersLeft (ws : List Worker) : Nat :=
  ws.foldr (fun w n => w.phase.left + n) 0

/-- How many steps a relay has left at most, if nothing more is handed over. -/
def Relay.toGo (r : Relay) : Nat :=
  2 * (r.queue.length + r.waiting.length) + r.current.toList.length
    + if r.ended.isSome then 0 else 1

/-- How many steps the parties of a run that is over have left at most. -/
def Run.toGo (r : Run) : Nat :=
  3 * workersLeft r.workers + r.relay.toGo

/-! ## What one step takes off -/

theorem Worker.step?_left {table : ExtractorTable} {gates : List String} {spools : Spools}
    {w : Worker} {s : WorkerStep} (hs : w.step? table gates spools = some s) :
    s.worker.phase.left < w.phase.left := by
  unfold step? at hs
  cases hp : w.phase with
  | ready =>
      simp only [hp] at hs
      cases hs
      exact Nat.lt_succ_self _
  | opening =>
      simp only [hp] at hs
      split at hs <;> cases hs <;> simp [WorkerPhase.left]
  | reading detected x content =>
      simp only [hp] at hs
      split at hs
      · cases hs
        simp [WorkerPhase.left]
      · exact absurd hs (by simp)
  | judging finding =>
      simp only [hp] at hs
      cases hs
      simp [WorkerPhase.left]
  | closing =>
      simp only [hp] at hs
      cases hs
      exact Nat.lt_succ_self _
  | leaving =>
      simp only [hp] at hs
      cases hs
      exact Nat.lt_succ_self _
  | finished => simp only [hp] at hs; exact absurd hs (by simp)
  | lost => simp only [hp] at hs; exact absurd hs (by simp)

theorem workersLeft_set {ws : List Worker} {i : Nat} {w : Worker} (hi : ws[i]? = some w)
    (w' : Worker) :
    workersLeft (ws.set i w') + w.phase.left = workersLeft ws + w'.phase.left := by
  induction ws generalizing i with
  | nil => exact absurd hi (by simp)
  | cons x xs ih =>
      cases i with
      | zero =>
          cases hi
          simp only [workersLeft, List.set_cons_zero, List.foldr_cons]
          omega
      | succ i =>
          have hrest := ih (i := i) hi
          simp only [workersLeft, List.set_cons_succ, List.foldr_cons] at hrest ⊢
          omega

namespace Relay

variable {r r' : Relay}

theorem emit_toGo (r : Relay) (e : Event) : (r.emit e).2.toGo ≤ r.toGo + 2 := by
  obtain ⟨mirror, hm⟩ := r.reflect_eq e
  unfold emit enqueue
  rw [hm]
  dsimp only
  split
  · unfold toGo
    dsimp only
    rw [List.length_append, List.length_singleton]
    omega
  · exact Nat.le_add_right _ 2

/-- A command off the queue is one less, whether or not somebody waited for its room. -/
theorem pop?_toGo {c : RelayCommand} (h : r.pop? = some (c, r')) :
    r'.toGo + 2 = r.toGo ∧ r'.current = r.current := by
  unfold pop? at h
  split at h
  · exact absurd h (by simp)
  · rename_i hq
    split at h
    · rename_i hw
      cases h
      refine ⟨?_, rfl⟩
      unfold toGo
      rw [hq, hw]
      simp only [List.length_cons, List.length_nil]
      omega
    · rename_i hw
      cases h
      refine ⟨?_, rfl⟩
      unfold toGo
      rw [hq, hw]
      simp only [List.length_cons, List.length_append, List.length_nil]
      omega

theorem settle_toGo (r : Relay) (c : RelayCommand) (o : DeliveryOutcome) :
    (r.settle c o).toGo + r.current.toList.length = r.toGo := by
  unfold settle toGo
  dsimp only
  rw [Option.toList_none, List.length_nil]
  omega

theorem finish_toGo (how : RelayEnd) (h : r.ended = none) : (r.finish how).toGo < r.toGo := by
  unfold finish toGo
  rw [h]
  simp

end Relay

namespace Run

variable {r r' : Run} {hub hub' : Hub} {a : Action} {handed : List Event}
  {decides : List (Event × DeliveryOutcome)}

theorem phase_of_isOver (ho : r.isOver = true) : r.phase = .returned ∨ r.phase = .abandoned := by
  unfold isOver at ho
  split at ho
  · exact Or.inl ‹_›
  · exact Or.inr ‹_›
  · exact absurd ho (by simp)

/-- The run itself takes no step when it is over. -/
theorem Acted.run_alive (ha : r.Acted hub .run handed decides hub' r') : r.isOver = false := by
  unfold isOver
  cases ha with
  | announced hp => rw [hp]
  | queued hp _ => rw [hp]
  | allQueued hp _ => rw [hp]
  | spawned hp _ => rw [hp]
  | allSpawned hp _ => rw [hp]
  | passed hp _ => rcases hp with hp | hp <;> rw [hp]
  | expired hp _ => rw [hp]
  | collected hp _ => rw [hp]
  | submitted hp => rw [hp]
  | answered hp _ => rw [hp]
  | stopped hp => rw [hp]
  | returned hp _ => rw [hp]

/-- A step of the relay takes at least one off what the relay has left. -/
theorem Acted.relay_toGo (ha : r.Acted hub .relay handed decides hub' r') :
    r'.workers = r.workers ∧ r'.phase = r.phase ∧ r'.relay.toGo < r.relay.toGo := by
  cases ha with
  | @decided c e outcome registry _ hc _ _ =>
      have hsettle := r.relay.settle_toGo c outcome
      rw [hc, Option.toList_some, List.length_singleton] at hsettle
      exact ⟨rfl, rfl, by dsimp only; omega⟩
  | @begun c e relay _ hc hpop _ _ =>
      -- a command counts two in the queue, and one while it is in work
      obtain ⟨hless, hcur⟩ := Relay.pop?_toGo hpop
      have hnow : ({ relay with current := some c } : Relay).toGo = relay.toGo + 1 := by
        unfold Relay.toGo
        rw [hcur, hc]
        simp only [Option.toList_some, Option.toList_none, List.length_singleton, List.length_nil]
        omega
      exact ⟨rfl, rfl, by dsimp only; omega⟩
  | @suppressed c e relay _ hc hpop _ _ =>
      obtain ⟨hless, hcur⟩ := Relay.pop?_toGo hpop
      have hsettle := relay.settle_toGo c .suppressed
      exact ⟨rfl, rfl, by dsimp only; omega⟩
  | @halted c relay hend _ hpop _ =>
      obtain ⟨hless, _⟩ := Relay.pop?_toGo hpop
      have hzero : (relay.finish .stopped).toGo = 0 := rfl
      exact ⟨rfl, rfl, by dsimp only; omega⟩
  | drained hend _ _ _ => exact ⟨rfl, rfl, Relay.finish_toGo .drained hend⟩

theorem applyStep_relay (r : Run) (hub : Hub) (i : Nat) (s : WorkerStep) :
    (r.applyStep hub i s).2.relay.toGo ≤ r.relay.toGo + 2 := by
  unfold applyStep
  have hemit := fun e => r.relay.emit_toGo e
  cases s.event with
  | none => cases s.leaves <;> exact Nat.le_add_right _ 2
  | some e => cases s.leaves <;> exact hemit e

/-- **Every step of a run that is over is one less to go.** -/
theorem Acted.winding (ha : r.Acted hub a handed decides hub' r') (ho : r.isOver = true) :
    r'.isOver = true ∧ r'.toGo < r.toGo := by
  cases a with
  | run =>
      rw [ha.run_alive] at ho
      exact absurd ho (by simp)
  | relay =>
      obtain ⟨hw, hp, hless⟩ := ha.relay_toGo
      refine ⟨?_, ?_⟩
      · unfold isOver at ho ⊢
        rw [hp]
        exact ho
      · unfold toGo
        rw [hw]
        omega
  | worker i =>
      cases ha with
      | @worked _ w s hi hs =>
          obtain ⟨_, hp, _, _, hw⟩ := Logged.applyStep_fields r hub i s
          refine ⟨?_, ?_⟩
          · unfold isOver at ho ⊢
            rw [hp]
            exact ho
          · -- the worker's step counts three, and the relay gets at most one command for it
            have hleft := Worker.step?_left hs
            have hsum := workersLeft_set hi s.worker
            have hrelay := r.applyStep_relay hub i s
            unfold toGo
            rw [hw]
            omega

end Run

/-! ## Where its parties come to a halt -/

section Settled

variable {p : Prepared} {r : Run} {hub : Hub} {log : List Event}
  {decided : List (Event × DeliveryOutcome)}

/-- Workers that cannot go on and are not blocked have finished. -/
theorem Logged.finished_of_settled (hl : Logged p r log) (hset : r.isSettled hub = true)
    (hfree : ∀ w ∈ r.workers, w.isBlocked hub.gates = false) :
    ∀ w ∈ r.workers, w.phase = .finished := by
  intro w hw
  refine Worker.finished_of_over (hl.consistent w hw) ?_
  cases hover : w.phase.isOver with
  | true => rfl
  | false =>
      have hblocked := Worker.isBlocked_of_stuck (Run.worker_of_settled hset hw) hover
      rw [hfree w hw] at hblocked
      exact absurd hblocked (by simp)

/-- **The relay of a run that is over ends**, once no worker is left that could give it work. -/
theorem Booked.ended_of_settled (hb : Booked p r log decided) (ho : r.isOver = true)
    (hset : r.isSettled hub = true) (hover : ∀ w ∈ r.workers, w.phase.isOver = true)
    (hclosed : hub.registry.Closed r.relay.handle) : r.relay.ended.isSome = true := by
  have hstuck := Run.relay_of_settled hset
  obtain ⟨_, _, hacc, _, _⟩ := hb.accounts
  have hgivers : r.relay.givers = 0 := by
    have hbusy : r.busy = 0 := List.countP_eq_zero.mpr fun w hw => by rw [hover w hw]; simp
    have hhandles : r.phase.handles = 0 := by
      rcases Run.phase_of_isOver ho with hp | hp <;> rw [hp] <;> rfl
    rw [hb.givers, hbusy, hhandles]
  unfold Relay.step? at hstuck
  cases hend : r.relay.ended with
  | some how => rfl
  | none =>
      rw [hend, if_neg (by simp)] at hstuck
      cases hc : r.relay.current with
      | some c =>
          -- an event in work is refused at once
          obtain ⟨e, he, _⟩ := hacc.admitted c hc
          simp only [hc, he, Option.map_eq_none_iff] at hstuck
          obtain ⟨f, hf, hcl⟩ := hclosed
          unfold Registry.deliver? Entry.deliver? at hstuck
          rw [hf] at hstuck
          dsimp only at hstuck
          rw [if_pos hcl] at hstuck
          exact absurd hstuck (by simp)
      | none =>
          simp only [hc] at hstuck
          cases hpop : r.relay.pop? with
          | some x =>
              simp only [hpop] at hstuck
              exact absurd hstuck (by simp)
          | none =>
              simp only [hpop] at hstuck
              rw [if_pos hgivers] at hstuck
              exact absurd hstuck (by simp)

/-- **When the workers of a run that is over have finished, its log is whole**, but for the last
event where the run was given up before it. -/
theorem Logged.wound_up (hl : Logged p r log) (ho : r.isOver = true)
    (hover : ∀ w ∈ r.workers, w.phase.isOver = true) :
    (r.workers.map (·.task.line)).map Line.fileName = p.files.map Submission.fileName
      ∧ (WholeLog p.id (r.workers.map (·.task.line)) log
        ∨ WholeLog p.id (r.workers.map (·.task.line))
          (log ++ [Event.ofSession p.id .completed])) := by
  have hlast : r.lastEvent = Event.ofSession p.id .completed := by
    unfold Run.lastEvent
    rw [hl.id]
  rcases Run.phase_of_isOver ho with hp | hp
  · obtain ⟨hnames, hwhole⟩ := hl.whole (by rw [hp]; simp [RunPhase.rank])
    exact ⟨hnames, Or.inl hwhole⟩
  · have hr : 3 ≤ r.phase.rank := by
      rw [hp]
      exact Nat.le_refl 3
    obtain ⟨mid, tail, hmid, ⟨htail, _⟩ | ⟨htail, _, _⟩, hlog⟩ := hl.shape
    · rw [htail, List.append_nil] at hlog
      have hl' := hl.forgone hmid hlog hover hp
      obtain ⟨hnames, hwhole⟩ := hl'.whole_of_closed hmid hover hr (by rw [hlog])
      rw [hlast] at hwhole
      exact ⟨hnames, Or.inr hwhole⟩
    · rw [htail] at hlog
      obtain ⟨hnames, hwhole⟩ := hl.whole_of_closed hmid hover hr hlog
      exact ⟨hnames, Or.inl hwhole⟩

end Settled
end Intake
