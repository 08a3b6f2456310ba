import Intake.Proofs.Delivery
import Intake.Proofs.Tickets

/-!
# Sessions past their deadline

In a session the run waits for its workers, then for the answer to its last event and for the
end of its relay. The relay waits for a reader, and a worker for its extractor. Past the
deadline the relay waits for no reader: it comes to a decision about every delivery. So where
nobody can take a step any more, the relay has decided on everything. The answer is among what it
decided, and it ends once it is told to. What is left is a run that is over, or one that waits for
a worker with a blocked extractor.
-/

namespace Intake

namespace Worker

/-- Holds of a worker whose extractor waits at a gate. -/
def isBlocked (gates : List String) (w : Worker) : Bool :=
  match w.phase with
  | .reading _ x _ => !gateOpen gates x
  | _ => false

/-- A worker that cannot go on and is not over waits for its extractor. -/
theorem isBlocked_of_stuck {table : ExtractorTable} {gates : List String} {spools : Spools}
    {w : Worker} (hs : w.step? table gates spools = none) (ho : w.phase.isOver = false) :
    w.isBlocked gates = true := by
  unfold isBlocked
  cases hp : w.phase with
  | reading detected x content =>
      simp only [step?, hp] at hs
      split at hs
      · exact absurd hs (by simp)
      · rename_i hg
        simpa using hg
  | opening =>
      simp only [step?, hp] at hs
      split at hs <;> exact absurd hs (by simp)
  | ready => exact absurd hs (by simp [step?, hp])
  | judging finding => exact absurd hs (by simp [step?, hp])
  | closing => exact absurd hs (by simp [step?, hp])
  | leaving => exact absurd hs (by simp [step?, hp])
  | finished => exact absurd ho (by simp [hp, WorkerPhase.isOver])
  | lost => exact absurd ho (by simp [hp, WorkerPhase.isOver])

end Worker

/-! ## Deliveries past the deadline -/

namespace Registry

variable {r r' : Registry} {h : Handle} {event : Event} {now deadline : Nat}

/-- Nobody waits with an event past its deadline. -/
theorem deliver?_due (hd : deadline ≤ now) : (r.deliver? h event now deadline).isSome = true := by
  unfold deliver?
  split
  · rfl
  · rename_i e _
    rw [Option.isSome_map]
    unfold Entry.deliver?
    by_cases hc : e.closed = true
    · rw [if_pos hc]
      rfl
    · rw [if_neg hc, if_pos hd]
      rfl

end Registry

/-! ## Settled sessions -/

namespace Run

/-- Holds where none of a session's parties can take a step. -/
def isSettled (r : Run) (hub : Hub) : Bool :=
  r.actions.all fun a => (r.act? a hub).isNone

variable {r r' : Run} {hub hub' : Hub} {a : Action} {handed : List Event}
  {decides : List (Event × DeliveryOutcome)}

theorem act?_of_settled (hset : r.isSettled hub = true) (ha : a ∈ r.actions) :
    r.act? a hub = none := by
  have hall := List.all_eq_true.mp hset a ha
  simpa using hall

theorem advance?_of_settled (hset : r.isSettled hub = true) : r.advance? hub = none :=
  act?_of_settled hset (a := .run) (by simp [actions])

theorem relay_of_settled (hset : r.isSettled hub = true) :
    r.relay.step? hub.registry hub.now = none :=
  Option.map_eq_none_iff.mp (act?_of_settled hset (a := .relay) (by simp [actions]))

theorem worker_of_settled (hset : r.isSettled hub = true) {w : Worker} (hw : w ∈ r.workers) :
    w.step? r.table hub.gates hub.spools = none := by
  obtain ⟨i, hi⟩ := List.mem_iff_getElem?.mp hw
  have hlt : i < r.workers.length := (List.getElem?_eq_some_iff.mp hi).1
  have hnone := act?_of_settled hset (a := .worker i) (by simpa [actions] using hlt)
  simp only [act?, hi] at hnone
  exact Option.map_eq_none_iff.mp hnone

/-! ## What a run knows of its deadline -/

/-- A step leaves the start and the deadline of a run alone. -/
theorem Acted.schedule (ha : r.Acted hub a handed decides hub' r') :
    r'.started = r.started ∧ r'.deadline = r.deadline := by
  cases ha with
  | @worked i w s _ _ =>
      unfold applyStep
      cases s.event <;> cases s.leaves <;> exact ⟨rfl, rfl⟩
  | _ => exact ⟨rfl, rfl⟩

end Run

/-- **The invariant of a run and its deadline.** -/
structure Timed (p : Prepared) (r : Run) : Prop where
  deadline : r.deadline = p.settings.deadlineFrom r.started
  relay : r.relay.deadline = r.deadline
  /-- A run that waits for the end of its relay has told it to stop. -/
  told : r.phase = .awaitingStop → r.relay.ended = none → .stop ∈ r.relay.queue

namespace Timed

variable {p : Prepared} {r r' : Run} {log : List Event}
  {decided : List (Event × DeliveryOutcome)}

theorem start {q : Prepared} (hs : q.settings = p.settings) (now : Nat) :
    Timed p (Run.start q now) where
  deadline := by
    rw [← hs]
    rfl
  relay := rfl
  told := fun h => absurd h (by simp [Run.start])

/-- The command to stop stays in the queue until it is its turn. -/
theorem stop_stays {relay : Relay} {c : RelayCommand} {e : Event} (hw : r.relay.waiting = [])
    (hpop : r.relay.pop? = some (c, relay)) (he : c.event? = some e)
    (hm : RelayCommand.stop ∈ r.relay.queue) : RelayCommand.stop ∈ relay.queue := by
  rw [(Relay.pop?_eq hw hpop).1] at hm
  rcases List.mem_cons.mp hm with heq | hrest
  · rw [← heq] at he
    exact absurd he (by simp [RelayCommand.event?])
  · exact hrest

theorem told_step {hub hub' : Hub} {a : Run.Action} {handed : List Event}
    {decides : List (Event × DeliveryOutcome)} (h : Timed p r) (hl : Logged p r log)
    (hb : Booked p r log decided) (ha : r.Acted hub a handed decides hub' r')
    (hp : r'.phase = .awaitingStop) (hend : r'.relay.ended = none) : .stop ∈ r'.relay.queue := by
  obtain ⟨_, _, hacc, _, _⟩ := hb.accounts
  cases ha with
  | announced _ => exact absurd hp (by simp [Run.emit])
  | queued hq _ => exact absurd (hq.symm.trans hp) (by simp)
  | allQueued _ _ => exact absurd hp (by simp)
  | spawned hs _ => exact absurd (hs.symm.trans hp) (by simp)
  | allSpawned _ _ => exact absurd hp (by simp)
  | passed _ _ => exact absurd hp (by simp)
  | expired _ _ => exact absurd hp (by simp)
  | collected _ _ => exact absurd hp (by simp)
  | submitted _ => exact absurd hp (by simp)
  | answered _ _ => exact absurd hp (by simp)
  | stopped hs =>
      have hq : ¬ r.Quiet := Run.not_quiet (by rw [hs]; rfl)
      obtain ⟨_, _, _, hnone, hwait, hroom⟩ := hb.room hq hl.length_le
      rw [Relay.give_eq hnone hwait hroom .stop]
      exact List.mem_append_right _ (List.mem_singleton.mpr rfl)
  | returned _ _ => exact absurd hp (by simp)
  | decided hnone _ _ _ => exact h.told hp hnone
  | begun hnone _ hpop he _ =>
      have hstop := stop_stays hacc.unwaiting hpop he (h.told hp hnone)
      exact hstop
  | suppressed hnone _ hpop he _ =>
      have hstop := stop_stays hacc.unwaiting hpop he (h.told hp hnone)
      exact hstop
  | halted _ _ _ _ => exact absurd hend (by simp [Relay.finish])
  | drained _ _ _ _ => exact absurd hend (by simp [Relay.finish])
  | @worked i w s hi hs =>
      -- every worker is over by then
      have hrank := hl.rank_of_step hi hs
      rw [← (Logged.applyStep_fields r hub i s).2.1, hp] at hrank
      exact absurd hrank (by simp [RunPhase.rank])

/-- **Preserved by every step.** -/
theorem step {hub hub' : Hub} {a : Run.Action} {handed : List Event}
    {decides : List (Event × DeliveryOutcome)} (h : Timed p r) (hl : Logged p r log)
    (hb : Booked p r log decided) (ha : r.Acted hub a handed decides hub' r') : Timed p r' where
  deadline := by
    rw [ha.schedule.2, ha.schedule.1]
    exact h.deadline
  relay := by
    rw [ha.terms.2, ha.schedule.2]
    exact h.relay
  told := h.told_step hl hb ha

theorem abandon (h : Timed p r) (hub : Hub) : Timed p (r.abandon hub).2 := by
  unfold Run.abandon
  split
  · exact ⟨h.deadline, h.relay, fun hp => absurd hp (by simp)⟩
  · exact h

end Timed

/-! ## What is left when nobody can go on -/

section Settled

variable {p : Prepared} {r : Run} {hub : Hub} {log : List Event}
  {decided : List (Event × DeliveryOutcome)}

/-- **A settled relay has nothing left to do** past the deadline. -/
theorem Booked.idle (hb : Booked p r log decided) (ht : Timed p r)
    (hset : r.isSettled hub = true) (hdue : r.deadline ≤ hub.now) : r.relay.commands = [] := by
  have hstuck := Run.relay_of_settled hset
  obtain ⟨_, _, hacc, _, _⟩ := hb.accounts
  unfold Relay.step? at hstuck
  cases hend : r.relay.ended with
  | some how => exact (hb.ended how hend).2.1
  | none =>
      rw [hend, if_neg (by simp)] at hstuck
      cases hc : r.relay.current with
      | some c =>
          -- the event in work would be decided
          obtain ⟨e, he, _⟩ := hacc.admitted c hc
          simp only [hc, he] at hstuck
          have hsome : (hub.registry.deliver? r.relay.handle e hub.now
              r.relay.deadline).isSome = true :=
            Registry.deliver?_due (ht.relay.symm ▸ hdue)
          rw [Option.map_eq_none_iff.mp hstuck] at hsome
          exact absurd hsome (by simp)
      | none =>
          simp only [hc] at hstuck
          cases hpop : r.relay.pop? with
          | some x =>
              simp only [hpop] at hstuck
              exact absurd hstuck (by simp)
          | none =>
              unfold Relay.commands
              rw [hc, Relay.pop?_none hpop]
              rfl

/-- A last event that was decided is answered. -/
theorem Booked.answer_of_decided (hb : Booked p r log decided) (hl : Logged p r log)
    (hr : 6 ≤ r.phase.rank) (hd : decided.map Prod.fst = log) :
    r.relay.answer? Run.lastTicket ≠ none := by
  obtain ⟨_, _, hacc, _, _⟩ := hb.accounts
  obtain ⟨front, hfront, _⟩ := wholeLog_last (hl.whole hr).2
  have hmem : Event.ofSession p.id .completed ∈ decided.map Prod.fst := by
    rw [hd, hfront]
    exact List.mem_append_right _ (List.mem_singleton.mpr rfl)
  obtain ⟨d, hdm, hde⟩ := List.mem_map.mp hmem
  have hanswer : (Run.lastTicket, d.2) ∈ r.relay.answers := by
    rw [hacc.answers]
    exact List.mem_map.mpr ⟨d, List.mem_filter.mpr ⟨hdm, by rw [hde]; rfl⟩, rfl⟩
  unfold Relay.answer?
  intro hnone
  split at hnone
  · exact absurd hnone (by simp)
  · rename_i hfind
    exact absurd (List.find?_eq_none.mp hfind _ hanswer) (by simp)

/-- **A settled run is over, or waits for a worker that is blocked**, with its entry closed. -/
theorem Logged.settled (hl : Logged p r log) (hb : Booked p r log decided) (hk : Ticketed r)
    (ht : Timed p r) (hset : r.isSettled hub = true) (hdue : r.deadline ≤ hub.now) :
    r.isOver = true
      ∨ r.phase = .overdue ∧ ∃ w ∈ r.workers, w.isBlocked hub.gates = true := by
  have hstuck := Run.advance?_of_settled hset
  have hidle := hb.idle ht hset hdue
  unfold Run.advance? at hstuck
  cases hp : r.phase with
  | announcing => simp only [hp] at hstuck; exact absurd hstuck (by simp)
  | queueing => simp only [hp] at hstuck; exact absurd hstuck (by simp)
  | spawning => simp only [hp] at hstuck; exact absurd hstuck (by simp)
  | waiting =>
      -- either the barrier is passed or the deadline
      simp only [hp] at hstuck
      split at hstuck
      · exact absurd hstuck (by simp)
      · rw [if_pos hdue] at hstuck
        exact absurd hstuck (by simp)
  | overdue =>
      simp only [hp, Option.map_eq_none_iff, Barrier.passed?] at hstuck
      -- a ticket is out, so a worker is not over
      have hbusy : 0 < r.busy := by
        rw [← hk.outstanding]
        by_contra hzero
        rw [if_pos (by omega)] at hstuck
        exact absurd hstuck (by simp)
      obtain ⟨w, hw, hover⟩ := List.countP_pos_iff.mp hbusy
      exact Or.inr ⟨rfl, w, hw,
        Worker.isBlocked_of_stuck (Run.worker_of_settled hset hw) (by simpa using hover)⟩
  | collecting =>
      simp only [hp] at hstuck
      have hall : (r.workers.all fun w => w.phase.isOver) = true := by
        have hzero := List.countP_eq_zero.mp (hk.passed (by rw [hp]; simp [RunPhase.rank])).1
        exact List.all_eq_true.mpr fun w hw => by simpa using hzero w hw
      rw [if_pos hall] at hstuck
      exact absurd hstuck (by simp)
  | submitting => simp only [hp] at hstuck; exact absurd hstuck (by simp)
  | awaitingOutcome =>
      simp only [hp, Option.map_eq_none_iff] at hstuck
      exact absurd hstuck (hb.answer_of_decided hl (by rw [hp]; simp [RunPhase.rank])
        (hb.decided_all hidle))
  | stopping => simp only [hp] at hstuck; exact absurd hstuck (by simp)
  | awaitingStop =>
      simp only [hp] at hstuck
      -- the relay was told to stop, so it has ended
      have hend : r.relay.ended.isSome = true := by
        cases hend : r.relay.ended with
        | some how => rfl
        | none =>
            have hstop := List.mem_append_right r.relay.current.toList (ht.told hp hend)
            have hnil : r.relay.current.toList ++ r.relay.queue = [] := hidle
            rw [hnil] at hstop
            exact absurd hstop (by simp)
      rw [if_pos hend] at hstuck
      exact absurd hstuck (by simp)
  | returned => exact Or.inl (by unfold Run.isOver; rw [hp])
  | abandoned => exact Or.inl (by unfold Run.isOver; rw [hp])

end Settled

/-! ## The last event -/

/-- The last event of a session is always shown. -/
theorem ProgressFilter.admits_terminal (f : ProgressFilter) {e : Event}
    (he : e.state.isTerminal = true) : f.admits e = true := by
  have hlast : e.state = .completed := by
    cases hs : e.state <;> rw [hs] at he <;> first | rfl | exact absurd he (by decide)
  unfold admits
  rw [hlast]
  cases f <;> rfl

/-- **Once the last event is told, the workers are over**, and the run is past it or given up. -/
theorem Logged.told {p : Prepared} {r : Run} {log : List Event} (h : Logged p r log) {e : Event}
    (he : e ∈ log) (hterm : e.state.isTerminal = true) :
    (∀ w ∈ r.workers, w.phase.isOver = true) ∧ (6 ≤ r.phase.rank ∨ r.phase = .abandoned) := by
  obtain ⟨mid, tail, hmid, ⟨htail, _⟩ | ⟨_, hover, hrank⟩, hlog⟩ := h.shape
  · -- all that is told so far is progress
    exfalso
    have hprogress : e.state.isTerminal = false := by
      rw [hlog, htail, List.append_nil] at he
      rcases List.mem_append.mp he with he | he
      · unfold Run.opening at he
        split at he
        · exact absurd he (by simp)
        · rcases List.mem_cons.mp he with heq | he
          · rw [heq]
            rfl
          · obtain ⟨t, _, heq⟩ := List.mem_map.mp he
            rw [← heq]
            rfl
      · obtain ⟨strand, hstrand, hes⟩ := hmid.mem he
        obtain ⟨w, _, heq⟩ := List.mem_map.mp hstrand
        rw [← heq] at hes
        exact (Line.of_mem_triple (List.mem_of_mem_take hes)).2
    rw [hterm] at hprogress
    exact absurd hprogress (by simp)
  · exact ⟨hover, hrank⟩

/-- Until the run comes to its last event, no event is the last. -/
theorem Logged.progress {p : Prepared} {r : Run} {log : List Event} (h : Logged p r log)
    (hr : r.phase.rank < 6) (hab : r.phase ≠ .abandoned) {e : Event} (he : e ∈ log) :
    e.state.isTerminal = false := by
  by_contra hterm
  rcases (h.told he (by simpa using hterm)).2 with hrank | hgiven
  · omega
  · exact hab hgiven

/-- Had a run that was given up gone on behind its workers, it would have told its last event. -/
theorem Logged.forgone {p : Prepared} {r : Run} {log mid : List Event} (h : Logged p r log)
    (hmid : Woven (r.workers.map Worker.told) mid) (hlog : log = r.opening ++ mid)
    (hover : ∀ w ∈ r.workers, w.phase.isOver = true) (hp : r.phase = .abandoned) :
    Logged p r (log ++ [r.lastEvent]) :=
  { h with shape := ⟨mid, [r.lastEvent], hmid, Or.inr ⟨rfl, hover, Or.inr hp⟩, by rw [hlog]⟩ }

end Intake
