import Intake.Proofs.Halves
import Intake.Proofs.Looks
import Intake.Proofs.Unmirrored

/-!
# A session in small steps

`Run.act?` is what a step of a party of a session comes to. Others can act in the middle of some of
them: between the copy that the mirror gets of an event and the handing over, between the looks of
the relay's delivery, between the two halves of a close, and between the things that a run does
one after the other behind its deadline and at its end. `Passage.move` is one of these pieces, or
one piece of what somebody else does. Others open, look up, close and read whatever they like,
the session's own entry included; their closes come in halves as well.

Beside the state stand the events that each party has handed over and those that it has copied,
what the relay has decided, and what the mirror's reader has received. `Passage.Moved` says once
what a move can do.
-/

namespace Intake

/-- What a run does, one thing after the other, behind its deadline and at its end. -/
inductive Chore where
  /-- The first half of the close of its entry. -/
  | unlist
  /-- The second half. -/
  | close (k : Handle)
  /-- The run lets go of the mirror. -/
  | release
  /-- The run reads the clock for its report. -/
  | stamp
  deriving DecidableEq, Repr

/-- What a run has to do when it comes to a phase. One that returns lets go of the mirror behind
its close; one that is given up closes its entry last. -/
def RunPhase.chores : RunPhase → List Chore
  | overdue => [.unlist]
  | returned => [.unlist, .release, .stamp]
  | abandoned => [.release, .unlist]
  | _ => []

/-- An event of which the mirror has its copy, while the queue does not have it yet. -/
structure Copying where
  party : Run.Action
  event : Event
  /-- How many ids had been handed out when the step began. -/
  serial : Nat
  deriving DecidableEq, Repr

/-- A session among all that goes on around it. -/
structure Passage where
  hub : Hub
  stage : Stage
  /-- The events that are on their way from the mirror to the queue. -/
  copying : List Copying := []
  /-- What the run has to do before anything else. -/
  chores : List Chore := []
  /-- The run holds on to the mirror. -/
  holding : Bool := true
  /-- What the relay's delivery looks at next. -/
  next : SendLook := .token
  /-- The entries that others have begun to close. -/
  closing : List Handle := []
  /-- The events that were handed to the relay, each with its party, in order. -/
  log : List (Run.Action × Event) := []
  /-- The events that the mirror was given, in order. -/
  copies : List (Run.Action × Event) := []
  /-- Two parties were on their ways at the same time. -/
  crossed : Bool := false
  /-- What the relay decided, in order. -/
  decided : List (Event × DeliveryOutcome) := []
  /-- What the mirror's reader received, in order. -/
  received : List Event := []
  /-- At its deadline the run found its entry still open, and somebody else between the halves of
  its close. -/
  overtaken : Bool := false

namespace Passage

/-- The passage of a session that was prepared just now. -/
def of (p : Prepared) (hub : Hub) : Passage :=
  { hub, stage := .prepared p }

/-- The run of a session that was started. -/
def run? (t : Passage) : Option Run :=
  match t.stage with
  | .prepared _ => none
  | .running r => some r

/-- The events that were handed to the relay. -/
def events (t : Passage) : List Event :=
  t.log.map Prod.snd

/-- The reader of the mirror is told that nothing more comes. -/
def mirrorOver (t : Passage) (r : Run) : Bool :=
  !t.holding && r.relay.givers = 0

/-- What can happen next. -/
inductive Move where
  /-- The session takes a mirror, before it is run. -/
  | takeMirror
  /-- The session begins to run. -/
  | start
  /-- The run, the relay or a worker takes its next piece of a step. -/
  | act (a : Run.Action)
  /-- The deadline elapses for a run that has found tickets out, even if they have come back
  since. -/
  | expire
  /-- The relay finds that the room is kept for another delivery, which has waited for longer. -/
  | yield
  /-- The run is given up where it waits. -/
  | abandon
  /-- The mirror's reader takes a copy. -/
  | popMirror
  /-- The mirror's reader goes away. -/
  | abandonMirror
  /-- Something is asked of the registry. -/
  | ask (c : Registry.Call)
  /-- The first half of a close by an id. -/
  | beginClose (id : String)
  /-- The first half of a close through a handle. -/
  | beginCloseEntry (h : Handle)
  /-- The second half of a close. -/
  | finishClose (h : Handle)
  /-- The registry goes away, and another one takes its place. -/
  | renew
  | wait (ms : Nat)
  /-- Other sessions use the spools and take ids, and gates open and close. -/
  | outside (spools : Spools) (gates : List String) (serial : Nat)
  /-- From now on extractors behave in another way. -/
  | behave (table : ExtractorTable)

/-! ## Pieces of steps -/

/-- The run does the next thing that it has to do. -/
def chore (t : Passage) (r : Run) (rest : List Chore) : Chore → Passage
  | .unlist =>
    let (_, k, registry) := t.hub.registry.beginCloseEntry r.handle
    { t with
      hub := { t.hub with registry }
      chores := (k.map Chore.close).toList ++ rest
      overtaken := t.overtaken || decide (r.phase = .overdue ∧ k ≠ some r.handle
        ∧ r.handle ∈ t.closing ∧ registry.isClosed r.handle = false) }
  | .close k =>
    { t with hub := { t.hub with registry := t.hub.registry.cancel k }, chores := rest }
  | .release => { t with holding := false, chores := rest }
  | .stamp => { t with stage := .running { r with finished := t.hub.now }, chores := rest }

/-- The mirror gets its copy of an event, which the party is to hand over next. -/
def copy (t : Passage) (r : Run) (a : Run.Action) (e : Event) (serial : Nat) : Passage :=
  { t with
    hub := { t.hub with serial }
    stage := .running { r with relay := r.relay.reflect e }
    copying := t.copying ++ [{ party := a, event := e, serial := t.hub.serial }]
    copies := if r.relay.filter.admits e then t.copies ++ [(a, e)] else t.copies
    crossed := t.crossed || !t.copying.isEmpty }

/-- An event is handed over of which the mirror has its copy. -/
def deposit (t : Passage) (r' : Run) (mirror : Option Mirror) (c : Copying) : Passage :=
  { t with
    stage := .running { r' with relay := { r'.relay with mirror } }
    copying := t.copying.filter fun d => d.party != c.party
    log := t.log ++ [(c.party, c.event)] }

/-- The second half of a step that hands an event over. The mirror is left out of it. -/
def hand (t : Passage) (r : Run) (c : Copying) : Passage :=
  match r.unmirrored.act? c.party { t.hub with serial := c.serial } with
  | none => t
  | some (_, r') => t.deposit r' r.relay.mirror c

/-- A step that hands nothing over, or the first half of one that does. The run comes to its entry
by its chores only. -/
def step (t : Passage) (r : Run) (a : Run.Action) : Passage :=
  match r.act? a t.hub with
  | none => t
  | some (hub, r') =>
    match r.handed t.hub a with
    | e :: _ => t.copy r a e hub.serial
    | [] =>
      { t with
        hub := { hub with registry := t.hub.registry }
        stage := .running r'
        chores := if r'.phase = r.phase then t.chores else r'.phase.chores
        decided := t.decided ++ r.decides t.hub a }

/-- A party goes on. -/
def proceed (t : Passage) (r : Run) (a : Run.Action) : Passage :=
  match t.copying.find? fun c => c.party == a with
  | some c => t.hand r c
  | none => t.step r a

/-- The relay decides on the event in work. -/
def settle (t : Passage) (r : Run) (c : RelayCommand) (e : Event) (outcome : DeliveryOutcome)
    (registry : Registry) : Passage :=
  { t with
    hub := { t.hub with registry }
    stage := .running { r with relay := r.relay.settle c outcome }
    next := .token
    decided := t.decided ++ [(e, outcome)] }

/-- The relay takes its next look, with an event in work. -/
def look (t : Passage) (r : Run) (c : RelayCommand) (e : Event) : Passage :=
  match t.next.look t.hub.registry r.relay.handle e t.hub.now r.relay.deadline with
  | .goes next => { t with next }
  | .decides outcome registry => t.settle r c e outcome registry

/-- A party takes its next piece of a step. -/
def act (t : Passage) (r : Run) : Run.Action → Passage
  | .run =>
    match t.chores with
    | [] => t.proceed r .run
    | c :: rest => t.chore r rest c
  | .relay =>
    match r.relay.current with
    | none => t.step r .relay
    | some c =>
      match c.event? with
      | some e => t.look r c e
      | none => t
  | .worker i => t.proceed r (.worker i)

/-- The passage after a move. A move that cannot be made changes nothing. -/
def move (t : Passage) : Move → Passage
  | .takeMirror =>
    match t.stage with
    | .prepared p => { t with stage := .prepared p.takeMirror }
    | .running _ => t
  | .start =>
    match t.stage with
    | .prepared p => { t with stage := .running (Run.start p t.hub.now) }
    | .running _ => t
  | .act a =>
    match t.stage with
    | .prepared _ => t
    | .running r => t.act r a
  | .expire =>
    match t.stage with
    | .prepared _ => t
    | .running r =>
      if r.phase = .waiting ∧ r.deadline ≤ t.hub.now ∧ t.chores = [] then
        { t with
          stage := .running { r with deadlineElapsed := true, phase := .overdue }
          chores := RunPhase.overdue.chores }
      else t
  | .yield => if t.next = .slot then { t with next := .token } else t
  | .abandon =>
    match t.stage with
    | .prepared _ => t
    | .running r =>
      if r.isSuspended ∧ t.chores = [] then
        { t with
          stage := .running { r.letGo with phase := .abandoned }
          chores := RunPhase.abandoned.chores }
      else t
  | .popMirror =>
    match t.stage with
    | .prepared _ => t
    | .running r =>
      match r.relay.popMirror? with
      | some (e, relay) =>
        { t with stage := .running { r with relay }, received := t.received ++ [e] }
      | none => t
  | .abandonMirror =>
    match t.stage with
    | .prepared p => { t with stage := .prepared { p with mirror := p.mirror.map Mirror.abandon } }
    | .running r => { t with stage := .running { r with relay := r.relay.abandonMirror } }
  | .ask c => { t with hub := { t.hub with registry := t.hub.registry.call c } }
  | .beginClose id =>
    let (k, registry) := t.hub.registry.beginClose id
    { t with hub := { t.hub with registry }, closing := t.closing ++ k.toList }
  | .beginCloseEntry h =>
    let (_, k, registry) := t.hub.registry.beginCloseEntry h
    { t with hub := { t.hub with registry }, closing := t.closing ++ k.toList }
  | .finishClose k =>
    if k ∈ t.closing then
      { t with
        hub := { t.hub with registry := t.hub.registry.cancel k }
        closing := t.closing.erase k }
    else t
  | .renew => { t with hub := { t.hub with registry := t.hub.registry.renew } }
  | .wait ms => { t with hub := { t.hub with now := t.hub.now + ms } }
  | .outside spools gates serial => { t with hub := { t.hub with spools, gates, serial } }
  | .behave table =>
    match t.stage with
    | .prepared p => { t with stage := .prepared { p with table } }
    | .running r => { t with stage := .running { r with table } }

/-- The passage after some moves. -/
def play (t : Passage) (ms : List Move) : Passage :=
  ms.foldl move t

theorem play_append (t : Passage) (ms ms' : List Move) :
    t.play (ms ++ ms') = (t.play ms).play ms' :=
  List.foldl_append

theorem stage_of_run? {t : Passage} {r : Run} (h : t.run? = some r) : t.stage = .running r := by
  unfold run? at h
  split at h
  · exact absurd h (by simp)
  · rename_i hs
    cases h
    exact hs

/-- There is one run at most. -/
theorem run_unique {t : Passage} {r r' : Run} (hs : t.stage = .running r)
    (hs' : t.stage = .running r') : r' = r :=
  Stage.running.inj (hs'.symm.trans hs)

/-! ## What a move can do -/

/-- What can become of a mirror before the session runs: it stays, is taken anew, or loses its
reader. -/
inductive Fitted (q : Prepared) : Option Mirror → Prop
  | same : Fitted q q.mirror
  | taken : Fitted q q.takeMirror.mirror
  | left : Fitted q (q.mirror.map Mirror.abandon)

/-- What its reader can do with a mirror, and has received then. -/
inductive Watched (seen : List Event) : Option Mirror → Option Mirror → List Event → Prop
  | same (mirror : Option Mirror) : Watched seen mirror mirror seen
  | popped {m m' : Mirror} {e : Event} : m.pop? = some (e, m') →
      Watched seen (some m) (some m') (seen ++ [e])
  | left (mirror : Option Mirror) : Watched seen mirror (mirror.map Mirror.abandon) seen

/-- Holds of those who are about nothing that they have begun. -/
def Free (t : Passage) (a : Run.Action) : Prop :=
  ∀ c ∈ t.copying, c.party ≠ a

/-- **The things that a move can do.** -/
inductive Moved (t : Passage) : Passage → Prop
  | same : t.Moved t
  | arranged {q : Prepared} (mirror : Option Mirror) (table : ExtractorTable) :
      t.stage = .prepared q → Fitted q mirror →
      t.Moved { t with stage := .prepared { q with mirror, table } }
  | started {q : Prepared} : t.stage = .prepared q →
      t.Moved { t with stage := .running (Run.start q t.hub.now) }
  | copied {r r' : Run} {a : Run.Action} {hub : Hub} {e : Event} {es : List Event} :
      t.stage = .running r → t.Free a → r.act? a t.hub = some (hub, r') →
      r.handed t.hub a = e :: es → t.Moved (t.copy r a e hub.serial)
  | handed {r r' : Run} {c : Copying} {hub : Hub} : t.stage = .running r → c ∈ t.copying →
      r.act? c.party { t.hub with serial := c.serial } = some (hub, r') →
      t.Moved (t.deposit r' r.relay.mirror c)
  | stepped {r r' : Run} {a : Run.Action} {decides : List (Event × DeliveryOutcome)} {hub : Hub} :
      t.stage = .running r → (a = .run → t.chores = []) →
      (a = .relay → r.relay.current = none) → r.Acted t.hub a [] decides hub r' →
      t.Moved { t with
        hub := { hub with registry := t.hub.registry }
        stage := .running r'
        chores := if r'.phase = r.phase then t.chores else r'.phase.chores
        decided := t.decided ++ decides }
  | turned {r : Run} {next : SendLook} : t.stage = .running r → r.relay.current.isSome = true →
      t.next.Turns t.hub.registry r.relay.handle t.hub.now r.relay.deadline next →
      t.Moved { t with next }
  | settled {r : Run} {c : RelayCommand} {e : Event} {outcome : DeliveryOutcome}
      {registry : Registry} : t.stage = .running r → r.relay.current = some c →
      c.event? = some e →
      t.next.Returns t.hub.registry r.relay.handle e t.hub.now r.relay.deadline outcome registry →
      t.Moved (t.settle r c e outcome registry)
  | chored {r : Run} {c : Chore} {rest : List Chore} : t.stage = .running r →
      t.chores = c :: rest → t.Moved (t.chore r rest c)
  | yielded : t.next = .slot → t.Moved { t with next := .token }
  | abandoned {r : Run} : t.stage = .running r → r.isSuspended = true → t.chores = [] →
      t.Moved { t with
        stage := .running { r.letGo with phase := .abandoned }
        chores := RunPhase.abandoned.chores }
  | tended {r : Run} (mirror : Option Mirror) (table : ExtractorTable) (received : List Event) :
      t.stage = .running r → Watched t.received r.relay.mirror mirror received →
      t.Moved { t with
        stage := .running { r with table, relay := { r.relay with mirror } }
        received }
  | stirred {registry : Registry} {closing : List Handle} :
      t.hub.registry.Stirred t.closing registry closing →
      t.Moved { t with hub := { t.hub with registry }, closing }
  | around {hub : Hub} : hub.registry = t.hub.registry → t.hub.now ≤ hub.now →
      t.Moved { t with hub }

variable {t t' : Passage} {r : Run}

theorem hand_moved {c : Copying} (hs : t.stage = .running r) (hc : c ∈ t.copying) :
    t.Moved (t.hand r c) := by
  unfold hand
  rw [Run.act?_unmirrored]
  cases ha : r.act? c.party { t.hub with serial := c.serial } with
  | none => exact .same
  | some x =>
      obtain ⟨hub, r'⟩ := x
      have hm : t.Moved (t.deposit r' r.relay.mirror c) := .handed hs hc ha
      exact hm

theorem step_moved {a : Run.Action} (hs : t.stage = .running r) (hfree : t.Free a)
    (hrun : a = .run → t.chores = []) (hrelay : a = .relay → r.relay.current = none) :
    t.Moved (t.step r a) := by
  unfold step
  cases ha : r.act? a t.hub with
  | none => exact .same
  | some x =>
      obtain ⟨hub, r'⟩ := x
      dsimp only
      have hacted := Run.act_acted ha
      cases hh : r.handed t.hub a with
      | cons e es => exact .copied hs hfree ha hh
      | nil =>
          rw [hh] at hacted
          exact .stepped hs hrun hrelay hacted

theorem proceed_moved {a : Run.Action} (hs : t.stage = .running r)
    (hrun : a = .run → t.chores = []) (hrelay : a ≠ .relay) : t.Moved (t.proceed r a) := by
  unfold proceed
  cases hf : t.copying.find? fun c => c.party == a with
  | some c => exact hand_moved hs (List.mem_of_find?_eq_some hf)
  | none =>
      refine step_moved hs ?_ hrun (fun h => absurd h hrelay)
      intro c hc
      simpa using List.find?_eq_none.mp hf c hc

theorem look_moved {c : RelayCommand} {e : Event} (hs : t.stage = .running r)
    (hc : r.relay.current = some c) (he : c.event? = some e) : t.Moved (t.look r c e) := by
  unfold look
  cases hl : t.next.look t.hub.registry r.relay.handle e t.hub.now r.relay.deadline with
  | goes next => exact .turned hs (by rw [hc]; rfl) (SendLook.turns_of_look hl)
  | decides outcome registry => exact .settled hs hc he (SendLook.returns_of_look hl)

theorem act_moved (a : Run.Action) (hs : t.stage = .running r) : t.Moved (t.act r a) := by
  unfold act
  cases a with
  | run =>
      cases hc : t.chores with
      | nil => exact proceed_moved hs (fun _ => hc) (by simp)
      | cons c rest => exact .chored hs hc
  | relay =>
      dsimp only
      cases hc : r.relay.current with
      | none =>
          -- the relay hands nothing over
          dsimp only
          unfold step
          cases ha : r.act? .relay t.hub with
          | none => exact .same
          | some x =>
              obtain ⟨hub, r'⟩ := x
              exact .stepped hs (by simp) (fun _ => hc) (Run.act_acted ha)
      | some c =>
          dsimp only
          cases he : c.event? with
          | none => exact .same
          | some e => exact look_moved hs hc he
  | worker i => exact proceed_moved hs (by simp) (by simp)

/-- **Every move does one of these things.** -/
theorem move_moved (t : Passage) (m : Move) : t.Moved (t.move m) := by
  cases m with
  | takeMirror =>
      dsimp only [move]
      split
      · rename_i q hs
        exact .arranged _ q.table hs .taken
      · exact .same
  | start =>
      dsimp only [move]
      split
      · rename_i hs
        exact .started hs
      · exact .same
  | act a =>
      dsimp only [move]
      split
      · exact .same
      · rename_i hs
        exact act_moved a hs
  | expire =>
      dsimp only [move]
      split
      · exact .same
      · rename_i r hs
        split
        · rename_i h
          obtain ⟨hp, hdue, hc⟩ := h
          have hm := Moved.stepped hs (fun _ => hc) (by simp) (.expired hp hdue)
          rw [if_neg (by rw [hp]; simp), List.append_nil] at hm
          exact hm
        · exact .same
  | yield =>
      dsimp only [move]
      split
      · rename_i hn
        exact .yielded hn
      · exact .same
  | abandon =>
      dsimp only [move]
      split
      · exact .same
      · rename_i hs
        split
        · rename_i h
          exact .abandoned hs h.1 h.2
        · exact .same
  | popMirror =>
      dsimp only [move]
      split
      · exact .same
      · rename_i r hs
        split
        · rename_i e relay hp
          obtain ⟨⟨e', m'⟩, hpop, heq⟩ := Option.map_eq_some_iff.mp hp
          cases heq
          obtain ⟨m, hm, hpop⟩ := Option.bind_eq_some_iff.mp hpop
          refine .tended (some m') r.table _ hs ?_
          rw [hm]
          exact .popped hpop
        · exact .same
  | abandonMirror =>
      dsimp only [move]
      split
      · rename_i q hs
        exact .arranged _ q.table hs .left
      · rename_i r hs
        exact .tended _ r.table t.received hs (.left _)
  | ask c => exact .stirred (.asked c)
  | beginClose id => exact .stirred (.begun (Registry.beginClose_begun _ id))
  | beginCloseEntry h => exact .stirred (.begun (Registry.beginCloseEntry_begun _ h))
  | finishClose k =>
      dsimp only [move]
      split
      · rename_i hk
        exact .stirred (.finished hk)
      · exact .same
  | renew => exact .stirred .renewed
  | wait ms => exact .around rfl (Nat.le_add_right _ _)
  | outside spools gates serial => exact .around rfl (Nat.le_refl _)
  | behave table =>
      dsimp only [move]
      split
      · rename_i q hs
        exact .arranged q.mirror table hs .same
      · rename_i r hs
        exact .tended r.relay.mirror table t.received hs (.same _)

end Passage
end Intake
