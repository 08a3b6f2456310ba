import Intake.Proofs.Accounts

/-!
# The tickets of a session's workers

A run hands a ticket to each worker, and a worker gives its ticket back with its last step. So
the tickets that are out are those of the workers that have something to do yet, and the run
passes the barrier when every worker is over. What it learns there is the number of its files.

How an invariant of a run is carried through the course of its session is said once, in
`Course.run_play`.
-/

namespace Intake

namespace Course

/-- **An invariant of a run.** What holds when the run starts, and is kept by every step, by
giving the run up, and by whatever happens to its mirror and its extractors, holds as long as
there is a run. -/
theorem run_play {p : Prepared} {I : Run → Prop}
    (start : ∀ q now, q.id = p.id → q.handle = p.handle → q.settings = p.settings →
      q.files = p.files → I (Run.start q now))
    (step : ∀ {r r' : Run} {log : List Event} {decided : List (Event × DeliveryOutcome)}
      {hub hub' : Hub} {a : Run.Action} {handed : List Event}
      {decides : List (Event × DeliveryOutcome)}, Logged p r log → Booked p r log decided →
      r.Acted hub a handed decides hub' r' → I r → I r')
    (abandon : ∀ r hub, I r → I (r.abandon hub).2)
    (tend : ∀ r mirror table, I r → I { r with table, relay := { r.relay with mirror } })
    (hub : Hub) (ms : List Move) {r : Run} (hs : ((of p hub).play ms).stage = .running r) :
    I r := by
  have moved : ∀ {c c' : Course}, c.Logs p → c.Books p → c.Moved c' →
      (∀ r, c.stage = .running r → I r) → ∀ r, c'.stage = .running r → I r := by
    intro c c' hl hb hm hi r' hr
    cases hm with
    | same => exact hi r' hr
    | arranged mirror table _ => exact absurd hr (by simp)
    | @started q hq =>
        cases hr
        obtain ⟨hh, hset, hf, _, _⟩ := hb.prepared hq
        exact start q c.hub.now (hl.prepared hq).1 hh hset hf
    | @acted r _ _ _ _ _ hs ha =>
        cases hr
        exact step (hl.running hs) (hb.running hs) ha (hi r hs)
    | @abandoned r hs =>
        cases hr
        exact abandon r c.hub (hi r hs)
    | @tended r mirror table hs =>
        cases hr
        exact tend r mirror table (hi r hs)
    | read _ => exact hi r' hr
    | asked _ => exact hi r' hr
    | renewed => exact hi r' hr
    | around _ _ => exact hi r' hr
  exact play_booked (fun c => ∀ r, c.stage = .running r → I r)
    (fun _ _ hl hb hm hi => moved hl hb hm hi) (fun r hr => absurd hr (by simp [of])) ms r hs

end Course

/-- **The invariant of a run and its barrier.** -/
structure Ticketed (r : Run) : Prop where
  /-- The tickets that are out are those of the workers that are not over. -/
  outstanding : r.barrier.outstanding = r.busy
  completed : r.barrier.completed + r.busy = r.workers.length
  /-- A run that has passed the barrier has seen all workers over. -/
  passed : 4 ≤ r.phase.rank → r.busy = 0 ∧ r.completions = r.workers.length

namespace Ticketed

variable {p : Prepared} {r r' : Run} {log : List Event}

theorem start (q : Prepared) (now : Nat) : Ticketed (Run.start q now) where
  outstanding := rfl
  completed := rfl
  passed := fun h => absurd h (by simp [Run.start, RunPhase.rank])

/-- Steps that concern neither workers nor tickets. -/
theorem keep (h : Ticketed r) (hw : r'.workers = r.workers) (hb : r'.barrier = r.barrier)
    (hc : r'.completions = r.completions) (hr : 4 ≤ r'.phase.rank → 4 ≤ r.phase.rank) :
    Ticketed r' := by
  have hbusy : r'.busy = r.busy := by
    unfold Run.busy
    rw [hw]
  refine ⟨?_, ?_, ?_⟩
  · rw [hb, hbusy]
    exact h.outstanding
  · rw [hb, hbusy, hw]
    exact h.completed
  · intro h4
    rw [hbusy, hc, hw]
    exact h.passed (hr h4)

/-- A new worker gets a ticket. -/
theorem spawned {task : FileTask} {spool : Spool} (h : Ticketed r) (hp : r.phase = .spawning)
    (hw : r'.workers = r.workers ++ [({ task, spool } : Worker)])
    (hb : r'.barrier = r.barrier.enter) (hp' : r'.phase = r.phase) : Ticketed r' := by
  have hbusy : r'.busy = r.busy + 1 := by
    unfold Run.busy
    rw [hw, List.countP_append]
    rfl
  have hlen : r'.workers.length = r.workers.length + 1 := by
    rw [hw, List.length_append]
    rfl
  have hout := h.outstanding
  have hcomp := h.completed
  refine ⟨?_, ?_, ?_⟩
  · rw [hb, hbusy]
    show r.barrier.outstanding + 1 = _
    omega
  · rw [hb, hbusy, hlen]
    show r.barrier.completed + _ = _
    omega
  · intro h4
    rw [hp', hp] at h4
    exact absurd h4 (by simp [RunPhase.rank])

/-- **The run passes the barrier when every worker is over**, and learns how many there are. -/
theorem pass {n : Nat} (h : Ticketed r) (hn : r.barrier.passed? = some n)
    (hw : r'.workers = r.workers) (hb : r'.barrier = r.barrier) (hc : r'.completions = n) :
    Ticketed r' := by
  have hbusy : r'.busy = r.busy := by
    unfold Run.busy
    rw [hw]
  have hout := h.outstanding
  have hcomp := h.completed
  unfold Barrier.passed? at hn
  split at hn
  · rename_i hzero
    cases hn
    refine ⟨?_, ?_, ?_⟩
    · rw [hb, hbusy]
      exact hout
    · rw [hb, hbusy, hw]
      exact hcomp
    · intro _
      rw [hbusy, hc, hw]
      omega
  · exact absurd hn (by simp)

/-- A worker gives its ticket back when it leaves. -/
theorem worked {hub : Hub} {i : Nat} {w : Worker} {s : WorkerStep} (h : Ticketed r)
    (hl : Logged p r log) (hi : r.workers[i]? = some w)
    (hs : w.step? r.table hub.gates hub.spools = some s) : Ticketed (r.applyStep hub i s).2 := by
  have hm : w ∈ r.workers := List.mem_of_getElem? hi
  have ht := Worker.step?_tells (hl.consistent w hm) hs
  obtain ⟨_, hphase, _, _, hw⟩ := Logged.applyStep_fields r hub i s
  have hbusy := Booked.busy_set hi ht hw
  have hlen : (r.applyStep hub i s).2.workers.length = r.workers.length := by
    rw [hw, List.length_set]
  -- a worker that is not over: the run has not passed the barrier
  have hpos : 0 < r.busy :=
    List.countP_pos_iff.mpr ⟨w, hm, by rw [ht.running]; rfl⟩
  have hout := h.outstanding
  have hcomp := h.completed
  have hbarrier : (r.applyStep hub i s).2.barrier
      = if s.leaves then r.barrier.leave else r.barrier := by
    unfold Run.applyStep
    cases s.event <;> cases s.leaves <;> rfl
  refine ⟨?_, ?_, ?_⟩
  · rw [hbarrier]
    cases hlv : s.leaves with
    | true =>
        rw [hlv, if_pos rfl] at hbusy
        show r.barrier.outstanding - 1 = _
        omega
    | false =>
        rw [hlv] at hbusy
        show r.barrier.outstanding = _
        simpa [hout] using hbusy
  · rw [hbarrier, hlen]
    cases hlv : s.leaves with
    | true =>
        rw [hlv, if_pos rfl] at hbusy
        show r.barrier.completed + 1 + _ = _
        omega
    | false =>
        rw [hlv] at hbusy
        show r.barrier.completed + _ = _
        rw [← hcomp, hbusy]
        rfl
  · intro h4
    rw [hphase] at h4
    exact absurd (h.passed h4).1 (by omega)

/-- **Preserved by every step.** -/
theorem step {hub hub' : Hub} {a : Run.Action} {handed : List Event}
    {decides : List (Event × DeliveryOutcome)} (h : Ticketed r) (hl : Logged p r log)
    (ha : r.Acted hub a handed decides hub' r') : Ticketed r' := by
  cases ha with
  | announced _ => exact h.keep rfl rfl rfl (fun h4 => absurd h4 (by simp [Run.emit, RunPhase.rank]))
  | queued hp _ => exact h.keep rfl rfl rfl id
  | allQueued _ _ => exact h.keep rfl rfl rfl (fun h4 => absurd h4 (by simp [RunPhase.rank]))
  | spawned hp _ => exact h.spawned hp rfl rfl rfl
  | allSpawned _ _ => exact h.keep rfl rfl rfl (fun h4 => absurd h4 (by simp [RunPhase.rank]))
  | passed _ hn => exact h.pass hn rfl rfl rfl
  | expired _ _ => exact h.keep rfl rfl rfl (fun h4 => absurd h4 (by simp [RunPhase.rank]))
  | collected hp _ => exact h.keep rfl rfl rfl (fun _ => by rw [hp]; exact Nat.le_refl 4)
  | submitted hp => exact h.keep rfl rfl rfl (fun _ => by rw [hp]; simp [RunPhase.rank])
  | answered hp _ => exact h.keep rfl rfl rfl (fun _ => by rw [hp]; simp [RunPhase.rank])
  | stopped hp => exact h.keep rfl rfl rfl (fun _ => by rw [hp]; simp [RunPhase.rank])
  | returned hp _ => exact h.keep rfl rfl rfl (fun _ => by rw [hp]; simp [RunPhase.rank])
  | decided _ _ _ _ => exact h.keep rfl rfl rfl id
  | begun _ _ _ _ _ => exact h.keep rfl rfl rfl id
  | suppressed _ _ _ _ _ => exact h.keep rfl rfl rfl id
  | halted _ _ _ _ => exact h.keep rfl rfl rfl id
  | drained _ _ _ _ => exact h.keep rfl rfl rfl id
  | worked hi hs => exact h.worked hl hi hs

theorem abandon (h : Ticketed r) (hub : Hub) : Ticketed (r.abandon hub).2 := by
  unfold Run.abandon
  split
  · exact h.keep rfl rfl rfl (fun h4 => absurd h4 (by simp [RunPhase.rank]))
  · exact h

end Ticketed

/-- At any time of a session the barrier knows how many workers are not over. -/
theorem Course.ticketed_play {p : Prepared} {hub : Hub} {ms : List Move} {r : Run}
    (hs : ((of p hub).play ms).stage = .running r) : Ticketed r :=
  run_play (fun q now _ _ _ _ => Ticketed.start q now)
    (fun hl _ ha h => h.step hl ha) (fun _ hub h => h.abandon hub)
    (fun _ _ _ h => h.keep rfl rfl rfl id) hub ms hs

end Intake
