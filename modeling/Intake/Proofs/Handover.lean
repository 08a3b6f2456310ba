import Intake.Proofs.Deadline
import Intake.Proofs.Passage

/-!
# Events on their way

A party that has given the mirror its copy of an event is to hand the event over next, and nothing
that others do in between changes which event that is: `Run.Due` is kept by their steps. So the
second half of the step is the step of the program, and what holds of a session that takes its
steps as a whole (`InOrder`) holds of one that takes them piece by piece.

The one event that never arrives is the last of a run that is given up between the two halves.
-/

namespace Intake

/-! ## Events that are due -/

/-- A worker hands an event over with its next step, whatever it meets. -/
def Worker.Says (w : Worker) (e : Event) : Prop :=
  ∀ table gates spools, ∃ s, w.step? table gates spools = some s ∧ s.event = some e
    ∧ s.spools = spools

theorem Worker.says_of_step {w : Worker} {table : ExtractorTable} {gates : List String}
    {spools : Spools} {s : WorkerStep} {e : Event} (hs : w.step? table gates spools = some s)
    (he : s.event = some e) : w.Says e := by
  intro table' gates' spools'
  unfold step? at hs ⊢
  cases hp : w.phase with
  | ready =>
      simp only [hp] at hs
      cases hs
      exact ⟨_, rfl, he, rfl⟩
  | judging finding =>
      simp only [hp] at hs
      cases hs
      exact ⟨_, rfl, he, rfl⟩
  | closing =>
      simp only [hp] at hs
      cases hs
      exact ⟨_, rfl, he, rfl⟩
  | opening =>
      simp only [hp] at hs
      split at hs <;> cases hs <;> exact absurd he (by simp)
  | reading detected x content =>
      simp only [hp] at hs
      split at hs
      · cases hs
        exact absurd he (by simp)
      · exact absurd hs (by simp)
  | leaving =>
      simp only [hp] at hs
      cases hs
      exact absurd he (by simp)
  | finished => simp only [hp] at hs; exact absurd hs (by simp)
  | lost => simp only [hp] at hs; exact absurd hs (by simp)

namespace Run

/-- **An event is due** from a party that has copied it. A run that was given up on the way forgoes
its last event. -/
inductive Due (r : Run) (log : List Event) : Copying → Prop
  | announced {serial : Nat} : r.phase = .announcing →
      r.Due log ⟨.run, Event.ofSession r.id .uploadStarted, serial⟩
  | queued {f : Submission} {files : List Submission} {serial : Nat} : r.phase = .queueing →
      r.files = f :: files → r.Due log ⟨.run, (r.taskOf { serial } f).currentEvent, serial⟩
  | submitted {serial : Nat} : r.phase = .submitting → r.Due log ⟨.run, r.lastEvent, serial⟩
  | forgone {serial : Nat} : r.phase = .abandoned → (∀ w ∈ r.workers, w.phase.isOver = true) →
      (∀ e ∈ log, e.state.isTerminal = false) → r.Due log ⟨.run, r.lastEvent, serial⟩
  | worked {i : Nat} {w : Worker} {e : Event} {serial : Nat} : r.workers[i]? = some w →
      w.Says e → r.Due log ⟨.worker i, e, serial⟩

variable {r r' : Run} {hub hub' : Hub} {a : Action} {log handed : List Event}
  {decides : List (Event × DeliveryOutcome)} {c : Copying}

/-- What a step hands over is due once it was copied. -/
theorem due_of_handed {e : Event} {es : List Event} (ha : r.act? a hub = some (hub', r'))
    (hh : r.handed hub a = e :: es) : r.Due log ⟨a, e, hub.serial⟩ ∧ es = [] := by
  cases a with
  | run =>
      unfold Run.handed at hh
      cases hp : r.phase with
      | announcing =>
          simp only [hp] at hh
          cases hh
          exact ⟨.announced hp, rfl⟩
      | queueing =>
          simp only [hp] at hh
          cases hf : r.files with
          | nil =>
              rw [hf] at hh
              exact absurd hh (by simp)
          | cons f files =>
              rw [hf] at hh
              cases hh
              exact ⟨.queued hp hf, rfl⟩
      | submitting =>
          simp only [hp] at hh
          cases hh
          exact ⟨.submitted hp, rfl⟩
      | _ => simp only [hp] at hh; exact absurd hh (by simp)
  | relay => exact absurd hh (by simp [Run.handed])
  | worker i =>
      unfold act? at ha
      cases hw : r.workers[i]? with
      | none =>
          simp only [hw] at ha
          exact absurd ha (by simp)
      | some w =>
          simp only [hw] at ha
          obtain ⟨s, hs, _⟩ := Option.map_eq_some_iff.mp ha
          simp only [Run.handed, hw, Option.bind_some, hs] at hh
          cases he : s.event with
          | none =>
              rw [he] at hh
              exact absurd hh (by simp)
          | some e' =>
              rw [he] at hh
              cases hh
              exact ⟨.worked hw (Worker.says_of_step hs he), rfl⟩

/-- **A party that is about an event can hand it over**, unless it is a run that was given up. -/
theorem Due.ready (hd : r.Due log c) (hab : c.party = .run → r.phase ≠ .abandoned)
    (hs : hub.serial = c.serial) :
    (∃ hub' r', r.act? c.party hub = some (hub', r')) ∧ r.handed hub c.party = [c.event] := by
  cases hd with
  | announced hp =>
      simp only [act?, advance?, Run.handed, hp, and_true]
      exact ⟨_, _, rfl⟩
  | @queued f files serial hp hf =>
      have htask : r.taskOf hub f = r.taskOf { serial } f := by
        unfold taskOf
        rw [hs]
      simp only [act?, advance?, Run.handed, hp, hf, List.head?_cons, Option.map_some,
        Option.toList_some, htask, and_true]
      exact ⟨_, _, rfl⟩
  | submitted hp =>
      simp only [act?, advance?, Run.handed, hp, and_true]
      exact ⟨_, _, rfl⟩
  | forgone hp _ _ => exact absurd hp (hab rfl)
  | worked hw hsays =>
      obtain ⟨s, hstep, he, _⟩ := hsays r.table hub.gates hub.spools
      simp only [act?, Run.handed, hw, hstep, Option.bind_some, he, Option.toList_some, and_true]
      exact ⟨_, _, rfl⟩

/-- What a party is about depends on its own part of the session only. -/
theorem Due.congr (hd : r.Due log c) (hid : r'.id = r.id) (hp : r'.phase = r.phase)
    (hf : r'.files = r.files) (hw : r'.workers = r.workers) : r'.Due log c := by
  have hlast : r'.lastEvent = r.lastEvent := by
    unfold lastEvent
    rw [hid]
  cases hd with
  | announced h => exact hid ▸ .announced (hp.trans h)
  | @queued f files serial h hfiles =>
      have hdue : r'.Due log ⟨.run, (r'.taskOf { serial } f).currentEvent, serial⟩ :=
        .queued (hp.trans h) (hf.trans hfiles)
      unfold taskOf at hdue
      rw [hid] at hdue
      exact hdue
  | submitted h => exact hlast ▸ .submitted (hp.trans h)
  | forgone h hover hlog => exact hlast ▸ .forgone (hp.trans h) (hw ▸ hover) hlog
  | worked h hsays => exact .worked ((congrArg (·[_]?) hw).trans h) hsays

/-- A step of the relay or of a worker leaves the run's own part alone. -/
theorem Acted.own (ha : r.Acted hub a handed decides hub' r') (hne : a ≠ .run) :
    r'.id = r.id ∧ r'.phase = r.phase ∧ r'.files = r.files := by
  cases ha with
  | decided _ _ _ _ => exact ⟨rfl, rfl, rfl⟩
  | begun _ _ _ _ _ => exact ⟨rfl, rfl, rfl⟩
  | suppressed _ _ _ _ _ => exact ⟨rfl, rfl, rfl⟩
  | halted _ _ _ _ => exact ⟨rfl, rfl, rfl⟩
  | drained _ _ _ _ => exact ⟨rfl, rfl, rfl⟩
  | worked _ _ =>
      obtain ⟨hid, hp, hf, _⟩ := Logged.applyStep_fields r hub _ _
      exact ⟨hid, hp, hf⟩
  | _ => exact absurd rfl hne

/-- A step of another party leaves a worker alone. -/
theorem Acted.worker_stays (ha : r.Acted hub a handed decides hub' r') {i : Nat} {w : Worker}
    (hw : r.workers[i]? = some w) (hne : a ≠ .worker i) : r'.workers[i]? = some w := by
  cases ha with
  | spawned _ _ =>
      exact (List.getElem?_append_left (List.getElem?_eq_some_iff.mp hw).1).trans hw
  | @worked j v s _ _ =>
      have hj : j ≠ i := fun h => hne (congrArg Action.worker h)
      rw [(Logged.applyStep_fields r hub j s).2.2.2.2, List.getElem?_set_ne hj]
      exact hw
  | _ => exact hw

/-- **What a party is about to hand over stays due**, whatever others do. -/
theorem Due.step (hd : r.Due log c) (hl : Logged p r log)
    (ha : r.Acted hub a handed decides hub' r') (hne : c.party ≠ a) :
    r'.Due (log ++ handed) c := by
  cases hd with
  | @announced serial hp =>
      obtain ⟨hid, hp', _⟩ := ha.own (Ne.symm hne)
      exact hid ▸ .announced (hp'.trans hp)
  | @queued f files serial hp hf =>
      obtain ⟨hid, hp', hf'⟩ := ha.own (Ne.symm hne)
      have hdue : r'.Due (log ++ handed) ⟨.run, (r'.taskOf { serial } f).currentEvent, serial⟩ :=
        .queued (hp'.trans hp) (hf'.trans hf)
      unfold taskOf at hdue
      rw [hid] at hdue
      exact hdue
  | @submitted serial hp =>
      obtain ⟨hid, hp', _⟩ := ha.own (Ne.symm hne)
      have hdue : r'.Due (log ++ handed) ⟨.run, r'.lastEvent, serial⟩ := .submitted (hp'.trans hp)
      unfold lastEvent at hdue
      rw [hid] at hdue
      exact hdue
  | forgone hp hover hlog =>
      -- the workers are over, so it is a step of the relay
      cases ha with
      | @worked i w s hi hs =>
          have hm := List.mem_of_getElem? hi
          have hrun := (Worker.step?_tells (hl.consistent w hm) hs).running
          rw [hover w hm] at hrun
          exact absurd hrun (by simp)
      | decided _ _ _ _ => exact .forgone hp hover (by rw [List.append_nil]; exact hlog)
      | begun _ _ _ _ _ => exact .forgone hp hover (by rw [List.append_nil]; exact hlog)
      | suppressed _ _ _ _ _ => exact .forgone hp hover (by rw [List.append_nil]; exact hlog)
      | halted _ _ _ _ => exact .forgone hp hover (by rw [List.append_nil]; exact hlog)
      | drained _ _ _ _ => exact .forgone hp hover (by rw [List.append_nil]; exact hlog)
      | _ => exact absurd rfl hne
  | worked hw hsays => exact .worked (ha.worker_stays hw (Ne.symm hne)) hsays

/-- A run that is given up forgoes the event that it is about. -/
theorem Due.abandon {p : Prepared} (hd : r.Due log c) (hl : Logged p r log)
    (hs : r.isSuspended = true) : Run.Due { r.letGo with phase := .abandoned } log c := by
  have hphase : ∀ {ph : RunPhase}, r.phase = ph → ph = .announcing ∨ ph = .queueing
      ∨ ph = .abandoned → False := by
    intro ph hp hor
    unfold isSuspended at hs
    rw [hp] at hs
    rcases hor with rfl | rfl | rfl <;> exact absurd hs (by simp)
  cases hd with
  | announced hp => exact (hphase hp (Or.inl rfl)).elim
  | queued hp _ => exact (hphase hp (Or.inr (Or.inl rfl))).elim
  | submitted hp =>
      exact .forgone rfl (hl.allOver (by rw [hp]; exact Nat.le_refl 5))
        fun e he => hl.progress (by rw [hp]; exact Nat.lt_succ_self 5) (by rw [hp]; simp) he
  | forgone hp _ _ => exact (hphase hp (Or.inr (Or.inr rfl))).elim
  | worked hw hsays => exact .worked hw hsays

/-- A step of a run that hands nothing over is not one of those that do. -/
theorem Acted.silent (ha : r.Acted hub .run handed decides hub' r') (hnil : handed = []) :
    r.phase ≠ .announcing ∧ (r.phase = .queueing → r.files = []) ∧ r.phase ≠ .submitting
      ∧ r.phase ≠ .abandoned := by
  cases ha with
  | announced _ => exact absurd hnil (by simp)
  | queued _ _ => exact absurd hnil (by simp)
  | submitted _ => exact absurd hnil (by simp)
  | allQueued hp hf => simp [hp, hf]
  | spawned hp _ => simp [hp]
  | allSpawned hp _ => simp [hp]
  | passed hp _ => rcases hp with hp | hp <;> simp [hp]
  | expired hp _ => simp [hp]
  | collected hp _ => simp [hp]
  | answered hp _ => simp [hp]
  | stopped hp => simp [hp]
  | returned hp _ => simp [hp]

/-- Who is about an event takes no other step. -/
theorem Due.not_silent (hd : r.Due log c) (ha : r.Acted hub a handed decides hub' r')
    (hnil : handed = []) : c.party ≠ a := by
  rintro rfl
  cases hd with
  | announced hp => exact (ha.silent hnil).1 hp
  | queued hp hf =>
      have hnone := (ha.silent hnil).2.1 hp
      rw [hf] at hnone
      exact absurd hnone (by simp)
  | submitted hp => exact (ha.silent hnil).2.2.1 hp
  | forgone hp _ _ => exact (ha.silent hnil).2.2.2 hp
  | worked hw hsays =>
      cases ha with
      | worked hw' hs =>
          rw [hw] at hw'
          cases hw'
          obtain ⟨s, hs', he, _⟩ := hsays r.table hub.gates hub.spools
          rw [hs] at hs'
          cases hs'
          rw [he] at hnil
          exact absurd hnil (by simp)

/-- **An event that is due fits the log.** -/
theorem Due.fits {p : Prepared} (hd : r.Due log c) (hl : Logged p r log) :
    ∃ r', Logged p r' (log ++ [c.event])
      ∧ ∀ d, d.party ≠ c.party → r.Due log d → r'.Due (log ++ [c.event]) d := by
  by_cases hgone : c.party = .run ∧ r.phase = .abandoned
  · -- a run that was given up takes no step any more, but its log would be one for its last event
    obtain ⟨hrun, hab⟩ := hgone
    cases hd with
    | announced hp => exact absurd (hp.symm.trans hab) (by simp)
    | queued hp _ => exact absurd (hp.symm.trans hab) (by simp)
    | submitted hp => exact absurd (hp.symm.trans hab) (by simp)
    | worked _ _ => exact absurd hrun (by simp)
    | forgone hp hover hlog =>
        obtain ⟨mid, tail, hmid, ⟨htail, _⟩ | ⟨htail, _, _⟩, heq⟩ := hl.shape
        · rw [htail, List.append_nil] at heq
          refine ⟨r, hl.forgone hmid heq hover hp, ?_⟩
          intro d hne hdue
          cases hdue with
          | worked hw hsays => exact .worked hw hsays
          | _ => exact absurd rfl hne
        · have hmem : r.lastEvent ∈ log := by
            rw [heq, htail]
            exact List.mem_append_right _ (List.mem_singleton.mpr rfl)
          exact absurd (hlog _ hmem) (by simp [lastEvent, Event.ofSession, EventState.isTerminal])
  · -- whatever hub the party takes its step in, it is the event that it has copied
    have hserial : ({ serial := c.serial } : Hub).serial = c.serial := rfl
    obtain ⟨⟨hub, r', ha⟩, hh⟩ := hd.ready (fun hrun hab => hgone ⟨hrun, hab⟩) hserial
    have hacted := act_acted ha
    rw [hh] at hacted
    exact ⟨r', hl.step hacted, fun d hne hdue => hdue.step hl hacted hne⟩

/-- **Together the log and the events on their way are no more than a whole log.** -/
theorem fits_all {p : Prepared} {cs : List Copying} (hl : Logged p r log)
    (hn : (cs.map Copying.party).Nodup) (hd : ∀ c ∈ cs, r.Due log c) :
    ∃ r', Logged p r' (log ++ cs.map Copying.event) := by
  -- one after the other they hand their events over; the run changes on the way, what is due stays
  induction cs generalizing r log with
  | nil => exact ⟨r, by rw [List.map_nil, List.append_nil]; exact hl⟩
  | cons c cs ih =>
      obtain ⟨hnew, hn⟩ := List.nodup_cons.mp hn
      obtain ⟨r', hl', hkeep⟩ := (hd c List.mem_cons_self).fits hl
      rw [List.map_cons, ← List.singleton_append, ← List.append_assoc]
      refine ih hl' hn fun d hm => hkeep d ?_ (hd d (List.mem_cons_of_mem _ hm))
      intro heq
      exact hnew (heq ▸ List.mem_map_of_mem hm)

end Run

/-! ## A session taken in pieces -/

/-- The registry never decides that an event is not to be shown. -/
theorem SendLook.Returns.shown {next : SendLook} {r r' : Registry} {h : Handle} {e : Event}
    {now deadline : Nat} {o : DeliveryOutcome} (hr : next.Returns r h e now deadline o r') :
    o ≠ .suppressed := by
  cases hr with
  | closed _ _ => simp
  | late _ _ => simp
  | offered _ ho =>
      unfold Registry.offer? at ho
      split at ho
      · cases ho
        simp
      · obtain ⟨⟨o', e'⟩, hoe, heq⟩ := Option.map_eq_some_iff.mp ho
        cases heq
        by_cases hd : o = .delivered
        · rw [hd]
          simp
        · rw [(Entry.offer?_refused hoe hd).1]
          simp

/-- **What holds of a run**, of its log and of what its relay has decided. -/
structure InOrder (p : Prepared) (r : Run) (log : List Event)
    (decided : List (Event × DeliveryOutcome)) : Prop where
  logged : Logged p r log
  booked : Booked p r log decided
  ticketed : Ticketed r
  timed : Timed p r
  handle : r.handle = p.handle

namespace InOrder

variable {p : Prepared} {r r' : Run} {log : List Event}
  {decided : List (Event × DeliveryOutcome)}

theorem start {q : Prepared} (hid : q.id = p.id) (hh : q.handle = p.handle)
    (hs : q.settings = p.settings) (hf : q.files = p.files) (now : Nat) :
    InOrder p (Run.start q now) [] [] :=
  ⟨Logged.init hid hf now, Booked.start hh hs hf now, Ticketed.start q now, Timed.start hs now, hh⟩

theorem acted {hub hub' : Hub} {a : Run.Action} {handed : List Event}
    {decides : List (Event × DeliveryOutcome)} (h : InOrder p r log decided)
    (ha : r.Acted hub a handed decides hub' r') :
    InOrder p r' (log ++ handed) (decided ++ decides) :=
  ⟨h.logged.step ha, h.booked.step h.logged ha, h.ticketed.step h.logged ha,
    h.timed.step h.logged h.booked ha, ha.handle.trans h.handle⟩

/-- What the mirror and the extractors do, and the time in the report. -/
theorem tend (h : InOrder p r log decided) (mirror : Option Mirror) (table : ExtractorTable) :
    InOrder p { r with table, relay := { r.relay with mirror } } log decided :=
  ⟨h.logged.tend mirror table, h.booked.tend mirror table, h.ticketed.keep rfl rfl rfl id,
    ⟨h.timed.deadline, h.timed.relay, h.timed.told⟩, h.handle⟩

theorem stamp (h : InOrder p r log decided) (finished : Nat) :
    InOrder p { r with finished } log decided :=
  ⟨{ h.logged with }, { h.booked with }, { h.ticketed with }, { h.timed with }, h.handle⟩

theorem abandon (h : InOrder p r log decided) (hs : r.isSuspended = true) :
    InOrder p { r.letGo with phase := .abandoned } log decided := by
  have hab : (r.abandon {}).2 = { r.letGo with phase := .abandoned } := by
    unfold Run.abandon
    rw [if_pos hs]
  rw [← hab]
  refine ⟨h.logged.abandon {}, h.booked.abandon {}, h.ticketed.abandon {}, h.timed.abandon {}, ?_⟩
  rw [hab]
  exact h.handle

/-- A relay with an event in work has not ended. -/
theorem alive (h : InOrder p r log decided) {c : RelayCommand} (hc : r.relay.current = some c) :
    r.relay.ended = none := by
  cases hend : r.relay.ended with
  | none => rfl
  | some how =>
      have hnil := (h.booked.ended how hend).2.1
      unfold Relay.commands at hnil
      rw [hc] at hnil
      exact absurd hnil (by simp)

/-- The relay decides on the event in work. -/
theorem settle (h : InOrder p r log decided) {c : RelayCommand} {e : Event} {o : DeliveryOutcome}
    (hc : r.relay.current = some c) (he : c.event? = some e) (ho : o ≠ .suppressed) :
    InOrder p { r with relay := r.relay.settle c o } log (decided ++ [(e, o)]) := by
  have hend := h.alive hc
  obtain ⟨_, _, hacc, _, _⟩ := h.booked.accounts
  obtain ⟨e', he', hadm⟩ := hacc.admitted c hc
  rw [he] at he'
  cases he'
  refine ⟨h.logged.relay _, ?_, h.ticketed.keep rfl rfl rfl id,
    ⟨h.timed.deadline, h.timed.relay, fun hp _ => h.timed.told hp hend⟩, h.handle⟩
  refine h.booked.settle r.relay.queue hend ?_ he ?_
  · unfold Relay.commands
    rw [hc]
    rfl
  · rw [hadm]
    exact iff_of_false ho (by simp)

end InOrder

namespace Passage

/-- A session that does not run yet. -/
structure Ready (p q : Prepared) (t : Passage) : Prop where
  id : q.id = p.id
  handle : q.handle = p.handle
  settings : q.settings = p.settings
  files : q.files = p.files
  log : t.log = []
  decided : t.decided = []
  copying : t.copying = []
  copies : t.copies = []
  chores : t.chores = []
  holding : t.holding = true
  next : t.next = .token
  received : t.received = []

/-- A session that runs. -/
structure Going (p : Prepared) (r : Run) (t : Passage) : Prop where
  inOrder : InOrder p r t.events t.decided
  /-- Nobody is about two events. -/
  parties : (t.copying.map Copying.party).Nodup
  due : ∀ c ∈ t.copying, r.Due t.events c

/-- **The invariant of a passage.** -/
def Steady (p : Prepared) (t : Passage) : Prop :=
  match t.stage with
  | .prepared q => Ready p q t
  | .running r => Going p r t

variable {p : Prepared} {t t' : Passage} {r : Run}

theorem Steady.ready (h : t.Steady p) {q : Prepared} (hs : t.stage = .prepared q) :
    Ready p q t := by
  unfold Steady at h
  rw [hs] at h
  exact h

theorem Steady.going (h : t.Steady p) (hs : t.stage = .running r) : Going p r t := by
  unfold Steady at h
  rw [hs] at h
  exact h

theorem steady_of (p : Prepared) (hub : Hub) : (of p hub).Steady p :=
  ⟨rfl, rfl, rfl, rfl, rfl, rfl, rfl, rfl, rfl, rfl, rfl, rfl⟩

theorem Going.copied {r' : Run} {a : Run.Action} {hub : Hub} {e : Event} {es : List Event}
    (h : Going p r t) (hfree : t.Free a) (ha : r.act? a t.hub = some (hub, r'))
    (hh : r.handed t.hub a = e :: es) : (t.copy r a e hub.serial).Steady p := by
  obtain ⟨mirror, hm⟩ := r.relay.reflect_eq e
  have hrelay : ({ r with relay := r.relay.reflect e } : Run)
      = { r with table := r.table, relay := { r.relay with mirror } } := by rw [hm]
  refine ⟨?_, ?_, ?_⟩
  · rw [hrelay]
    exact h.inOrder.tend mirror r.table
  · show ((t.copying ++ [_]).map Copying.party).Nodup
    rw [List.map_append, List.nodup_append]
    refine ⟨h.parties, by simp, ?_⟩
    intro x hx y hy hxy
    obtain ⟨c, hc, rfl⟩ := List.mem_map.mp hx
    exact hfree c hc (hxy.trans (List.mem_singleton.mp hy))
  · intro c hc
    rcases List.mem_append.mp hc with hold | hnew
    · exact (h.due c hold).congr rfl rfl rfl rfl
    · rw [List.mem_singleton.mp hnew]
      exact (Run.due_of_handed ha hh).1.congr rfl rfl rfl rfl

/-- What the second half of a step does is what the step does. -/
theorem Going.acted_of_due {r' : Run} {c : Copying} {hub hub' : Hub} (h : Going p r t)
    (hc : c ∈ t.copying) (hs : hub.serial = c.serial)
    (ha : r.act? c.party hub = some (hub', r')) :
    r.Acted hub c.party [c.event] [] hub' r' := by
  have hdue := h.due c hc
  have hacted := Run.act_acted ha
  have hnot : c.party = .run → r.phase ≠ .abandoned := by
    intro hrun hab
    rw [hrun] at ha
    simp [Run.act?, Run.advance?, hab] at ha
  -- it is the run or a worker, and only the relay decides
  have hdec : r.decides hub c.party = [] := by
    cases hdue <;> rfl
  rw [(hdue.ready hnot hs).2, hdec] at hacted
  exact hacted

theorem Going.handed {r' : Run} {c : Copying} {hub : Hub} (h : Going p r t)
    (hc : c ∈ t.copying) (ha : r.act? c.party { t.hub with serial := c.serial } = some (hub, r')) :
    (t.deposit r' r.relay.mirror c).Steady p := by
  have hacted := h.acted_of_due hc rfl ha
  have hevents : (t.deposit r' r.relay.mirror c).events = t.events ++ [c.event] := by
    unfold events deposit
    rw [List.map_append]
    rfl
  have hin := h.inOrder.acted hacted
  rw [List.append_nil] at hin
  refine ⟨?_, ?_, ?_⟩
  · rw [hevents]
    exact hin.tend r.relay.mirror r'.table
  · exact h.parties.sublist (List.filter_sublist.map _)
  · intro d hd
    obtain ⟨hm, hne⟩ := List.mem_filter.mp hd
    rw [hevents]
    exact ((h.due d hm).step h.inOrder.logged hacted (by simpa using hne)).congr rfl rfl rfl rfl

/-- **Preserved by every move.** -/
theorem steady_moved (h : t.Steady p) (hm : t.Moved t') : t'.Steady p := by
  cases hm with
  | same => exact h
  | arranged mirror table hs => exact { h.ready hs with }
  | started hs =>
      have hr := h.ready hs
      refine ⟨?_, by rw [hr.copying]; exact List.nodup_nil, ?_⟩
      · show InOrder p _ (t.log.map Prod.snd) t.decided
        rw [hr.log, hr.decided]
        exact InOrder.start hr.id hr.handle hr.settings hr.files _
      · intro c hc
        have hnone : c ∈ t.copying := hc
        rw [hr.copying] at hnone
        exact absurd hnone (by simp)
  | copied hs hfree ha hh => exact (h.going hs).copied hfree ha hh
  | handed hs hc ha => exact (h.going hs).handed hc ha
  | stepped hs _ _ ha =>
      have hg := h.going hs
      have hin := hg.inOrder.acted ha
      rw [List.append_nil] at hin
      refine ⟨hin, hg.parties, fun c hc => ?_⟩
      have hdue := hg.due c hc
      have hstep := hdue.step hg.inOrder.logged ha (hdue.not_silent ha rfl)
      rw [List.append_nil] at hstep
      exact hstep
  | turned hs _ _ =>
      have hg := h.going hs
      unfold Steady
      rw [hs]
      exact { hg with }
  | settled hs hc he hr =>
      have hg := h.going hs
      exact ⟨hg.inOrder.settle hc he hr.shown, hg.parties,
        fun d hd => (hg.due d hd).congr rfl rfl rfl rfl⟩
  | @chored r c rest hs hc =>
      have hg := h.going hs
      cases c with
      | stamp =>
          exact ⟨hg.inOrder.stamp _, hg.parties, fun d hd => (hg.due d hd).congr rfl rfl rfl rfl⟩
      | _ =>
          unfold Steady chore
          rw [hs]
          exact { hg with }
  | yielded hn =>
      cases hs : t.stage with
      | prepared q =>
          have hr := h.ready hs
          rw [hr.next] at hn
          exact absurd hn (by simp)
      | running r =>
          have hg := h.going hs
          exact { hg with }
  | abandoned hs hsus _ =>
      have hg := h.going hs
      exact ⟨hg.inOrder.abandon hsus, hg.parties,
        fun c hc => (hg.due c hc).abandon hg.inOrder.logged hsus⟩
  | tended mirror table received hs =>
      have hg := h.going hs
      exact ⟨hg.inOrder.tend mirror table, hg.parties,
        fun c hc => (hg.due c hc).congr rfl rfl rfl rfl⟩
  | stirred _ =>
      cases hs : t.stage with
      | prepared q =>
          have hr := h.ready hs
          exact { hr with }
      | running r =>
          have hg := h.going hs
          exact { hg with }
  | around _ _ =>
      cases hs : t.stage with
      | prepared q =>
          have hr := h.ready hs
          exact { hr with }
      | running r =>
          have hg := h.going hs
          exact { hg with }

/-- What holds at the beginning of a passage and is preserved by every move holds ever after. -/
theorem play_induction (P : Passage → Prop)
    (step : ∀ t t', t.Steady p → t.Moved t' → P t → P t') (hst : t.Steady p) (h : P t)
    (ms : List Move) : P (t.play ms) := by
  induction ms generalizing t with
  | nil => exact h
  | cons m ms ih =>
      have hm := t.move_moved m
      exact ih (steady_moved hst hm) (step _ _ hst hm h)

theorem steady_play (h : t.Steady p) (ms : List Move) : (t.play ms).Steady p :=
  play_induction (Steady p) (fun _ _ hst hm _ => steady_moved hst hm) h h ms

end Passage
end Intake
