import Intake.Proofs.Outlet
import Intake.Session

/-!
# The course of a session

A session is prepared, perhaps gets a mirror, and is run. The run, the relay and the workers
take their steps in any order. At the same time a reader of the session's entry comes, reads
and goes, other sessions use the registry and the spools, anybody closes entries, extractors
answer as they please, gates open and close, and time passes. `Course.move` is one step of one
of these parties, and a course is what any number of such steps come to. Left out is only the
end of the process, which takes workers and relays down where they are.

Two lists are kept beside the state: the events that the session handed to its relay, and what
the relay decided on them. `Run.Acted` says once what a step of a session can do to all of it.
-/

namespace Intake

namespace Run

/-- The task that the next file gets. -/
def taskOf (r : Run) (hub : Hub) (f : Submission) : FileTask where
  session := r.id
  id := Identifier.fresh hub.serial
  fileName := f.fileName
  declared := f.declared

/-- The events that a step hands to the relay. -/
def handed (r : Run) (hub : Hub) : Action → List Event
  | .run =>
    match r.phase with
    | .announcing => [Event.ofSession r.id .uploadStarted]
    | .queueing => (r.files.head?.map fun f => (r.taskOf hub f).currentEvent).toList
    | .submitting => [r.lastEvent]
    | _ => []
  | .relay => []
  | .worker i =>
    ((r.workers[i]?.bind fun w => w.step? r.table hub.gates hub.spools).bind
      WorkerStep.event).toList

end Run

/-- What a step of a relay decides: the event, with what became of it. -/
def Relay.decides (r : Relay) (registry : Registry) (now : Nat) :
    List (Event × DeliveryOutcome) :=
  match r.current with
  | some c =>
    (c.event?.bind fun e =>
      (registry.deliver? r.handle e now r.deadline).map fun (outcome, _) => (e, outcome)).toList
  | none =>
    ((r.pop?.bind fun (c, _) => c.event?).bind fun e =>
      if r.filter.admits e then none else some (e, .suppressed)).toList

/-- What a step decides. -/
def Run.decides (r : Run) (hub : Hub) : Run.Action → List (Event × DeliveryOutcome)
  | .relay => r.relay.decides hub.registry hub.now
  | _ => []

/-- How far a session is. -/
inductive Stage where
  | prepared (p : Prepared)
  | running (r : Run)

/-- A session among all that goes on around it. -/
structure Course where
  /-- The session's entry. -/
  handle : Handle
  hub : Hub
  stage : Stage
  /-- The events that were handed to the relay, in order. -/
  log : List Event := []
  /-- What the relay decided, in order. -/
  decided : List (Event × DeliveryOutcome) := []
  outlet : Outlet := {}

namespace Course

/-- The course of a session that was prepared just now. -/
def of (p : Prepared) (hub : Hub) : Course :=
  { handle := p.handle, hub, stage := .prepared p }

/-- The run of a session that was started. -/
def run? (c : Course) : Option Run :=
  match c.stage with
  | .prepared _ => none
  | .running r => some r

/-- What can happen next. -/
inductive Move where
  /-- The session takes a mirror, before it is run. -/
  | takeMirror
  /-- The session begins to run. -/
  | start
  /-- The run, the relay or a worker takes a step. -/
  | act (a : Run.Action)
  /-- The run is given up where it waits. -/
  | abandon
  /-- The mirror's reader takes a copy. -/
  | popMirror
  /-- The mirror's reader goes away. -/
  | abandonMirror
  /-- The reader of the session's entry makes a move. -/
  | reader (m : Outlet.Move)
  | wait (ms : Nat)
  /-- Something else is asked of the registry. -/
  | other (c : Registry.Call)
  /-- The registry goes away, and another one takes its place. -/
  | renew
  /-- Other sessions use the spools and take ids, and gates open and close. -/
  | outside (spools : Spools) (gates : List String) (serial : Nat)
  /-- From now on extractors behave in another way. -/
  | behave (table : ExtractorTable)

/-- The course after a move. A move that cannot be made changes nothing. -/
def move (c : Course) : Move → Course
  | .takeMirror =>
    match c.stage with
    | .prepared p => { c with stage := .prepared p.takeMirror }
    | .running _ => c
  | .start =>
    match c.stage with
    | .prepared p => { c with stage := .running (Run.start p c.hub.now) }
    | .running _ => c
  | .act a =>
    match c.stage with
    | .prepared _ => c
    | .running r =>
      match r.act? a c.hub with
      | none => c
      | some (hub, r') =>
        { c with
          hub
          stage := .running r'
          log := c.log ++ r.handed c.hub a
          decided := c.decided ++ r.decides c.hub a }
  | .abandon =>
    match c.stage with
    | .prepared _ => c
    | .running r => { c with hub := (r.abandon c.hub).1, stage := .running (r.abandon c.hub).2 }
  | .popMirror =>
    match c.stage with
    | .prepared _ => c
    | .running r =>
      match r.relay.popMirror? with
      | some (_, relay) => { c with stage := .running { r with relay } }
      | none => c
  | .abandonMirror =>
    match c.stage with
    | .prepared p => { c with stage := .prepared { p with mirror := p.mirror.map Mirror.abandon } }
    | .running r => { c with stage := .running { r with relay := r.relay.abandonMirror } }
  | .reader m =>
    let (outlet, registry) := c.outlet.move c.handle c.hub.now c.hub.registry m
    { c with outlet, hub := { c.hub with registry } }
  | .wait ms => { c with hub := { c.hub with now := c.hub.now + ms } }
  | .other call =>
    if call.spares c.handle then
      { c with hub := { c.hub with registry := c.hub.registry.call call } }
    else c
  | .renew => { c with hub := { c.hub with registry := c.hub.registry.renew } }
  | .outside spools gates serial => { c with hub := { c.hub with spools, gates, serial } }
  | .behave table =>
    match c.stage with
    | .prepared p => { c with stage := .prepared { p with table } }
    | .running r => { c with stage := .running { r with table } }

/-- The course after some moves. -/
def play (c : Course) (ms : List Move) : Course :=
  ms.foldl move c

theorem play_append (c : Course) (ms ms' : List Move) :
    c.play (ms ++ ms') = (c.play ms).play ms' :=
  List.foldl_append

/-- What holds at the beginning and is preserved by every move holds ever after. -/
theorem play_induction (P : Course → Prop) (step : ∀ c m, P c → P (c.move m)) {c : Course}
    (h : P c) (ms : List Move) : P (c.play ms) := by
  induction ms generalizing c with
  | nil => exact h
  | cons m ms ih => exact ih (step c m h)

theorem stage_of_run? {c : Course} {r : Run} (h : c.run? = some r) : c.stage = .running r := by
  unfold run? at h
  split at h
  · exact absurd h (by simp)
  · rename_i hs
    cases h
    exact hs

end Course

/-! ## What a step can do -/

namespace Run

/-- The things that a step of a session can do, each with what it hands over and what it
decides. -/
inductive Acted (r : Run) (hub : Hub) : Action → List Event → List (Event × DeliveryOutcome) →
    Hub → Run → Prop
  | announced : r.phase = .announcing →
      r.Acted hub .run [Event.ofSession r.id .uploadStarted] [] hub
        (emit { r with phase := .queueing } (Event.ofSession r.id .uploadStarted))
  | queued {f : Submission} {files : List Submission} : r.phase = .queueing →
      r.files = f :: files →
      r.Acted hub .run [(r.taskOf hub f).currentEvent] [] { hub with serial := hub.serial + 1 }
        (emit { r with files, queued := r.queued ++ [(r.taskOf hub f, f.spool)] }
          (r.taskOf hub f).currentEvent)
  | allQueued : r.phase = .queueing → r.files = [] →
      r.Acted hub .run [] [] hub { r with phase := .spawning }
  | spawned {task : FileTask} {spool : Spool} {queued : List (FileTask × Spool)} :
      r.phase = .spawning → r.queued = (task, spool) :: queued →
      r.Acted hub .run [] [] hub { r with
        queued
        workers := r.workers ++ [{ task, spool }]
        barrier := r.barrier.enter
        relay := r.relay.join }
  | allSpawned : r.phase = .spawning → r.queued = [] →
      r.Acted hub .run [] [] hub { r with phase := .waiting, relay := r.relay.release }
  | passed {n : Nat} : r.phase = .waiting ∨ r.phase = .overdue → r.barrier.passed? = some n →
      r.Acted hub .run [] [] hub { r with completions := n, phase := .collecting }
  | expired : r.phase = .waiting → r.deadline ≤ hub.now →
      r.Acted hub .run [] [] { hub with registry := (hub.registry.closeEntry r.handle).2 }
        { r with deadlineElapsed := true, phase := .overdue }
  | collected : r.phase = .collecting → (∀ w ∈ r.workers, w.phase.isOver = true) →
      r.Acted hub .run [] [] hub { r with phase := .submitting }
  | submitted : r.phase = .submitting →
      r.Acted hub .run [r.lastEvent] [] hub
        { r with relay := r.relay.submit r.lastEvent lastTicket, phase := .awaitingOutcome }
  | answered {outcome : DeliveryOutcome} : r.phase = .awaitingOutcome →
      r.relay.answer? lastTicket = some outcome →
      r.Acted hub .run [] [] hub { r with outcome, phase := .stopping }
  | stopped : r.phase = .stopping →
      r.Acted hub .run [] [] hub { r with relay := r.relay.give .stop, phase := .awaitingStop }
  | returned : r.phase = .awaitingStop → r.relay.ended.isSome = true →
      r.Acted hub .run [] [] { hub with registry := (hub.registry.closeEntry r.handle).2 }
        { r with relay := r.relay.release, finished := hub.now, phase := .returned }
  | decided {c : RelayCommand} {e : Event} {outcome : DeliveryOutcome} {registry : Registry} :
      r.relay.ended = none → r.relay.current = some c → c.event? = some e →
      hub.registry.deliver? r.relay.handle e hub.now r.relay.deadline = some (outcome, registry) →
      r.Acted hub .relay [] [(e, outcome)] { hub with registry }
        { r with relay := r.relay.settle c outcome }
  | begun {c : RelayCommand} {e : Event} {relay : Relay} : r.relay.ended = none →
      r.relay.current = none → r.relay.pop? = some (c, relay) → c.event? = some e →
      r.relay.filter.admits e = true →
      r.Acted hub .relay [] [] hub { r with relay := { relay with current := some c } }
  | suppressed {c : RelayCommand} {e : Event} {relay : Relay} : r.relay.ended = none →
      r.relay.current = none → r.relay.pop? = some (c, relay) → c.event? = some e →
      r.relay.filter.admits e = false →
      r.Acted hub .relay [] [(e, .suppressed)] hub { r with relay := relay.settle c .suppressed }
  | halted {c : RelayCommand} {relay : Relay} : r.relay.ended = none → r.relay.current = none →
      r.relay.pop? = some (c, relay) → c.event? = none →
      r.Acted hub .relay [] [] hub { r with relay := relay.finish .stopped }
  | drained : r.relay.ended = none → r.relay.current = none → r.relay.pop? = none →
      r.relay.givers = 0 →
      r.Acted hub .relay [] [] hub { r with relay := r.relay.finish .drained }
  | worked {i : Nat} {w : Worker} {s : WorkerStep} : r.workers[i]? = some w →
      w.step? r.table hub.gates hub.spools = some s →
      r.Acted hub (.worker i) s.event.toList [] (r.applyStep hub i s).1 (r.applyStep hub i s).2

theorem queueNext_acted {r : Run} (hub : Hub) (hp : r.phase = .queueing) :
    r.Acted hub .run (r.handed hub .run) [] (r.queueNext hub).1 (r.queueNext hub).2 := by
  have hh : r.handed hub .run
      = (r.files.head?.map fun f => (r.taskOf hub f).currentEvent).toList := by
    simp only [handed, hp]
  unfold queueNext
  split
  · rename_i hf
    have hnone : r.handed hub .run = [] := by rw [hh, hf]; rfl
    rw [hnone]
    exact .allQueued hp hf
  · rename_i f files hf
    have hsome : r.handed hub .run = [(r.taskOf hub f).currentEvent] := by rw [hh, hf]; rfl
    rw [hsome]
    exact .queued hp hf

theorem spawnNext_acted {r : Run} {hub : Hub} (hp : r.phase = .spawning) :
    r.Acted hub .run [] [] hub r.spawnNext := by
  unfold spawnNext
  split
  · rename_i hq
    exact .allSpawned hp hq
  · rename_i hq
    exact .spawned hp hq

/-- A step of the run itself. -/
theorem advance_acted {r r' : Run} {hub hub' : Hub} (h : r.advance? hub = some (hub', r')) :
    r.Acted hub .run (r.handed hub .run) [] hub' r' := by
  unfold advance? at h
  cases hp : r.phase with
  | announcing =>
      simp only [hp] at h
      cases h
      simp only [handed, hp]
      exact .announced hp
  | queueing =>
      simp only [hp] at h
      have heq := Option.some.inj h
      have hacted := queueNext_acted hub hp
      rw [heq] at hacted
      exact hacted
  | spawning =>
      simp only [hp] at h
      cases h
      simp only [handed, hp]
      exact spawnNext_acted hp
  | waiting =>
      simp only [hp] at h
      simp only [handed, hp]
      cases hb : r.barrier.passed? with
      | some n =>
          simp only [hb] at h
          cases h
          exact .passed (Or.inl hp) hb
      | none =>
          simp only [hb] at h
          split at h
          · rename_i hd
            cases h
            exact .expired hp hd
          · exact absurd h (by simp)
  | overdue =>
      simp only [hp] at h
      simp only [handed, hp]
      obtain ⟨n, hb, heq⟩ := Option.map_eq_some_iff.mp h
      cases heq
      exact .passed (Or.inr hp) hb
  | collecting =>
      simp only [hp] at h
      simp only [handed, hp]
      split at h
      · rename_i hall
        cases h
        exact .collected hp (List.all_eq_true.mp hall)
      · exact absurd h (by simp)
  | submitting =>
      simp only [hp] at h
      simp only [handed, hp]
      cases h
      exact .submitted hp
  | awaitingOutcome =>
      simp only [hp] at h
      simp only [handed, hp]
      obtain ⟨outcome, ha, heq⟩ := Option.map_eq_some_iff.mp h
      cases heq
      exact .answered hp ha
  | stopping =>
      simp only [hp] at h
      simp only [handed, hp]
      cases h
      exact .stopped hp
  | awaitingStop =>
      simp only [hp] at h
      simp only [handed, hp]
      split at h
      · rename_i he
        cases h
        exact .returned hp he
      · exact absurd h (by simp)
  | returned => simp only [hp] at h; exact absurd h (by simp)
  | abandoned => simp only [hp] at h; exact absurd h (by simp)

/-- Taking a command off the queue changes neither what may be shown nor for how long. -/
theorem pop?_terms {r r' : Relay} {c : RelayCommand} (h : r.pop? = some (c, r')) :
    r'.filter = r.filter ∧ r'.deadline = r.deadline := by
  unfold Relay.pop? at h
  split at h
  · exact absurd h (by simp)
  · split at h <;> cases h <;> exact ⟨rfl, rfl⟩

/-- A step of the relay. -/
theorem relay_acted {r : Run} {hub : Hub} {relay : Relay} {registry : Registry}
    (h : r.relay.step? hub.registry hub.now = some (relay, registry)) :
    r.Acted hub .relay [] (r.relay.decides hub.registry hub.now) { hub with registry }
      { r with relay } := by
  unfold Relay.step? at h
  split at h
  · exact absurd h (by simp)
  · rename_i hend
    have hend : r.relay.ended = none := by simpa using hend
    unfold Relay.decides
    cases hc : r.relay.current with
    | some c =>
        simp only [hc] at h ⊢
        cases he : c.event? with
        | none =>
            simp only [he] at h
            exact absurd h (by simp)
        | some e =>
            simp only [he] at h
            obtain ⟨⟨outcome, registry'⟩, hd, heq⟩ := Option.map_eq_some_iff.mp h
            cases heq
            rw [Option.bind_some, hd]
            exact .decided hend hc he hd
    | none =>
        simp only [hc] at h ⊢
        cases hp : r.relay.pop? with
        | none =>
            simp only [hp] at h
            split at h
            · rename_i hg
              cases h
              exact .drained hend hc hp hg
            · exact absurd h (by simp)
        | some x =>
            obtain ⟨c, relay'⟩ := x
            simp only [hp] at h
            cases h
            rw [Option.bind_some]
            unfold Relay.begin
            cases he : c.event? with
            | none => exact .halted hend hc hp he
            | some e =>
                dsimp only
                -- taking a command off the queue leaves the filter alone
                have hf := (pop?_terms hp).1
                rw [← hf, Option.bind_some]
                by_cases ha : relay'.filter.admits e = true
                · rw [if_pos ha, if_pos ha]
                  exact .begun hend hc hp he (by rw [← hf]; exact ha)
                · rw [if_neg ha, if_neg ha]
                  exact .suppressed hend hc hp he (by rw [← hf]; simpa using ha)

/-- **Every step does one of these things.** -/
theorem act_acted {r r' : Run} {hub hub' : Hub} {a : Action}
    (h : r.act? a hub = some (hub', r')) :
    r.Acted hub a (r.handed hub a) (r.decides hub a) hub' r' := by
  unfold act? at h
  cases a with
  | run => exact advance_acted h
  | relay =>
      obtain ⟨⟨relay, registry⟩, hs, heq⟩ := Option.map_eq_some_iff.mp h
      cases heq
      exact relay_acted hs
  | worker i =>
      simp only at h
      cases hw : r.workers[i]? with
      | none =>
          simp only [hw] at h
          exact absurd h (by simp)
      | some w =>
          simp only [hw] at h
          obtain ⟨s, hs, heq⟩ := Option.map_eq_some_iff.mp h
          have hacted : r.Acted hub (.worker i) s.event.toList [] _ _ := .worked hw hs
          rw [heq] at hacted
          simp only [handed, hw, Option.bind_some, hs]
          exact hacted

end Run

/-! ## What a move can do -/

namespace Course

/-- The things that a move can do to a course. -/
inductive Moved (c : Course) : Course → Prop
  | same : c.Moved c
  | arranged {q : Prepared} (mirror : Option Mirror) (table : ExtractorTable) :
      c.stage = .prepared q → c.Moved { c with stage := .prepared { q with mirror, table } }
  | started {q : Prepared} : c.stage = .prepared q →
      c.Moved { c with stage := .running (Run.start q c.hub.now) }
  | acted {r r' : Run} {a : Run.Action} {handed : List Event}
      {decides : List (Event × DeliveryOutcome)} {hub : Hub} : c.stage = .running r →
      r.Acted c.hub a handed decides hub r' →
      c.Moved { c with
        hub
        stage := .running r'
        log := c.log ++ handed
        decided := c.decided ++ decides }
  | abandoned {r : Run} : c.stage = .running r →
      c.Moved { c with hub := (r.abandon c.hub).1, stage := .running (r.abandon c.hub).2 }
  | tended {r : Run} (mirror : Option Mirror) (table : ExtractorTable) : c.stage = .running r →
      c.Moved { c with stage := .running { r with table, relay := { r.relay with mirror } } }
  | read (m : Outlet.Move) :
      c.Moved { c with
        outlet := (c.outlet.move c.handle c.hub.now c.hub.registry m).1
        hub := { c.hub with
          registry := (c.outlet.move c.handle c.hub.now c.hub.registry m).2 } }
  | asked {call : Registry.Call} : call.spares c.handle = true →
      c.Moved { c with hub := { c.hub with registry := c.hub.registry.call call } }
  | renewed : c.Moved { c with hub := { c.hub with registry := c.hub.registry.renew } }
  | around {hub : Hub} : hub.registry = c.hub.registry → c.hub.now ≤ hub.now →
      c.Moved { c with hub }

/-- **Every move does one of these things.** -/
theorem move_moved (c : Course) (m : Move) : c.Moved (c.move m) := by
  cases m with
  | takeMirror =>
      dsimp only [move]
      split
      · rename_i q hs
        exact .arranged _ q.table hs
      · exact .same
  | start =>
      dsimp only [move]
      split
      · rename_i hs
        exact .started hs
      · exact .same
  | act a =>
      dsimp only [move]
      split
      · exact .same
      · rename_i r hs
        split
        · exact .same
        · rename_i ha
          exact .acted hs (Run.act_acted ha)
  | abandon =>
      dsimp only [move]
      split
      · exact .same
      · rename_i hs
        exact .abandoned hs
  | popMirror =>
      dsimp only [move]
      split
      · exact .same
      · rename_i r hs
        split
        · rename_i e relay hp
          obtain ⟨⟨e', m⟩, _, heq⟩ := Option.map_eq_some_iff.mp hp
          cases heq
          exact .tended (some m) r.table hs
        · exact .same
  | abandonMirror =>
      dsimp only [move]
      split
      · rename_i q hs
        exact .arranged _ q.table hs
      · rename_i r hs
        exact .tended _ r.table hs
  | reader m => exact .read m
  | wait ms => exact .around rfl (Nat.le_add_right _ _)
  | other call =>
      dsimp only [move]
      split
      · rename_i hc
        exact .asked hc
      · exact .same
  | renew => exact .renewed
  | outside spools gates serial => exact .around rfl (Nat.le_refl _)
  | behave table =>
      dsimp only [move]
      split
      · rename_i q hs
        exact .arranged q.mirror table hs
      · rename_i r hs
        exact .tended r.relay.mirror table hs

end Course
end Intake
