import Intake.Bench.State

/-!
# Turns

The parties of a bench take turns: each goes on until it has to wait, and a party that
went on stands behind the others in the next round. The bench is settled when nobody can
go on. Then only the clock helps: it jumps to the next time for which somebody waits,
unless an extraction is at work.
-/

namespace Intake.Bench

/-- More steps than any party takes before it has to wait. -/
def enough : Nat := 1000000000

/-! ## Jobs -/

/-- A job that is done. -/
def finish (b : Bench) (i : Nat) (result : Result) : Bench :=
  sweep { b with
    jobs := b.jobs.set i (.finished result)
    parties := b.parties.filter (· != .job i) }

/-- A job that goes on as another one. -/
def goOn (b : Bench) (i : Nat) (job : Job) : Bench :=
  { b with jobs := b.jobs.set i (.pending job) }

/-- Adds parties behind the others. -/
def enroll (b : Bench) (ps : List Party) : Bench :=
  { b with parties := b.parties ++ ps }

/-- One step of a run itself, which may bring new workers. -/
def advanceRun? (b : Bench) (seat : Nat) : Option Bench :=
  match b.runAt? seat with
  | none => none
  | some r =>
    match r.advance? b.hub with
    | none => none
    | some (hub, r') =>
      let fresh := (List.range r'.workers.length).drop r.workers.length
      some ((b.putRun seat hub r').enroll (fresh.map (Party.worker seat)))

/-- Attaches a sink, under a name. -/
def addSink (b : Bench) (name : String) (s : Sink) (registry : Registry) : Bench :=
  let i := b.sinks.length
  { b.withRegistry registry with
    sinks := b.sinks ++ [some s]
    sinkNames := b.sinkNames.put name i }

/-- One look of a sink at its stream. -/
def receive? (b : Bench) (sink deadline : Nat) : Option (Option Event × Bench) :=
  match (b.sinks[sink]?).join with
  | none => none
  | some s =>
    match s.receive? b.hub.registry b.hub.now deadline with
    | none => none
    | some (event, s, registry) =>
      some (event, { b.withRegistry registry with sinks := b.sinks.set sink (some s) })

/-! ## Streams -/

/-- One look of a stream at where its events come from: the next event, or none at the end;
nothing if the stream has to wait. -/
def look? (b : Bench) : Http.Source → Option (Option Event × Http.Source × Bench)
  | .sink s deadline =>
    (s.receive? b.hub.registry b.hub.now deadline).map fun (event, s, registry) =>
      (event, .sink s deadline, b.withRegistry registry)
  | .mirror seat =>
    match b.runAt? seat with
    | none => some (none, .mirror seat, b)
    | some r =>
      match r.relay.popMirror? with
      | some (event, relay) =>
        some (some event, .mirror seat, b.putRun seat b.hub { r with relay })
      | none => if r.mirrorOver then some (none, .mirror seat, b) else none

/-- A stream lets go of where its events come from. -/
def letGo (b : Bench) : Http.Source → Bench
  | .sink s _ => b.withRegistry (s.drop b.hub.registry)
  | .mirror seat =>
    match b.runAt? seat with
    | some r => b.putRun seat b.hub { r with relay := r.relay.abandonMirror }
    | none => b

/-- The response to an exchange begins to stream, unless the client takes no body. -/
def openFeed (b : Bench) (source : Http.Source) (appetite : Http.Appetite) : JobState × Bench :=
  match appetite with
  | .whole =>
    (.pending (.exchange (.streaming (.start source b.hub.now) .whole)), b)
  | a => (.finished (.response ((Http.Service.ofStream []).taken a)), b.letGo source)

/-- One step of an exchange. -/
def stepExchange? (b : Bench) (i : Nat) : Http.Exchange → Option Bench
  | .attaching a settings appetite =>
    match a.step? b.hub.registry b.hub.now with
    | none => none
    | some (.again a) => some (b.goOn i (.exchange (.attaching a settings appetite)))
    | some (.failed e) =>
      some (b.finish i (.response ((Http.Service.ofError (.ofSink e)).taken appetite)))
    | some (.attached s registry) =>
      let source := Http.Source.sink s (settings.deadlineFrom b.hub.now)
      match (b.withRegistry registry).openFeed source appetite with
      | (.pending job, b) => some (b.goOn i job)
      | (.finished r, b) => some (b.finish i r)
      | (.cancelled, b) => some b
  | .streaming f appetite =>
    match b.look? f.source with
    | some (some e, source, b) =>
      let f := { f with source }.send (.event e) b.hub.now
      some (b.goOn i (.exchange (.streaming f appetite)))
    | some (none, source, b) => some ((b.letGo source).finish i (.response f.response))
    | none => (f.pulse? b.hub.now).map fun f => b.goOn i (.exchange (.streaming f appetite))

/-- One step of a job. -/
def stepJob? (b : Bench) (i : Nat) : Job → Option Bench
  | .watch h => if b.hub.registry.isClosed h then some (b.finish i .closed) else none
  | .send h event deadline =>
    match b.hub.registry.deliver? h event b.hub.now deadline with
    | some (outcome, registry) => some ((b.withRegistry registry).finish i (.outcome outcome))
    | none => none
  | .attach name a =>
    match a.step? b.hub.registry b.hub.now with
    | none => none
    | some (.attached s registry) =>
      some ((b.addSink name s registry).finish i (.attached a.id))
    | some (.failed e) => some (b.finish i (.refused e))
    | some (.again a) => some (b.goOn i (.attach name a))
  | .receive sink deadline =>
    match b.receive? sink deadline with
    | some (event, b) => some (b.finish i (.received event))
    | none => none
  | .drain sink deadline events =>
    match b.receive? sink deadline with
    | some (some event, b) => some (b.goOn i (.drain sink deadline (event :: events)))
    | some (none, b) => some (b.finish i (.drained events.reverse))
    | none => none
  | .forward relay ticket =>
    match (b.relays[relay]?).bind (·.answer? ticket) with
    | some outcome => some (b.finish i (.outcome outcome))
    | none => none
  | .shutdown relay =>
    match b.relays[relay]? with
    | some r => if r.ended.isSome then some (b.finish i (.stats r.finalStats)) else none
    | none => none
  | .barrier k =>
    match (b.barriers[k]?).bind Barrier.passed? with
    | some n => some (b.finish i (.passed n))
    | none => none
  | .run seat =>
    match b.advanceRun? seat with
    | none => none
    | some b =>
      match b.runAt? seat with
      | some r => if r.isOver then some (b.finish i (.report r.report)) else some b
      | none => some b
  | .exchange x => b.stepExchange? i x
  | .sleep wake => if wake ≤ b.hub.now then some (b.finish i .rested) else none

/-! ## Turns -/

/-- One step of a party, if it can take one. -/
def step? (b : Bench) : Party → Option Bench
  | .job i =>
    match b.jobs[i]? with
    | some (.pending j) => b.stepJob? i j
    | _ => none
  | .relay i =>
    match b.relays[i]? with
    | some r =>
      (r.step? b.hub.registry b.hub.now).map fun (r, registry) =>
        { b.withRegistry registry with relays := b.relays.set i r }
    | none => none
  | .seatRelay seat =>
    match b.runAt? seat with
    | some r => (r.act? .relay b.hub).map fun (hub, r) => b.putRun seat hub r
    | none => none
  | .worker seat i =>
    match b.runAt? seat with
    | some r => (r.act? (.worker i) b.hub).map fun (hub, r) => b.putRun seat hub r
    | none => none

/-- Takes steps of one party until it has to wait. -/
def drive (p : Party) : (fuel : Nat) → Bench → Bench
  | 0, b => b
  | fuel + 1, b =>
    match b.step? p with
    | some b => drive p fuel b
    | none => b

/-- The turn of one party; one that goes on stands behind the others afterwards. -/
def turn (s : Bench × Bool) (p : Party) : Bench × Bool :=
  match s.1.step? p with
  | none => s
  | some b =>
    let b := drive p enough b
    if b.parties.contains p then
      ({ b with parties := b.parties.filter (· != p) ++ [p] }, true)
    else (b, true)

/-- Rounds of turns until nobody goes on. -/
def rounds : (fuel : Nat) → Bench → Bench
  | 0, b => b
  | fuel + 1, b =>
    match b.parties.foldl turn (b, false) with
    | (b, true) => rounds fuel b
    | (b, false) => b

/-- Lets everybody go on as far as they can without the clock. -/
def settle (b : Bench) : Bench :=
  rounds enough b

/-! ## The clock -/

/-- The time for which a relay waits. -/
def relayTimer? (r : Relay) : Option Nat :=
  if r.ended.isNone && r.current.isSome then some r.deadline else none

/-- The time for which a job waits. -/
def jobTimer? (b : Bench) : Job → Option Nat
  | .send _ _ deadline => some deadline
  | .attach _ a => some a.next
  | .receive _ deadline => some deadline
  | .drain _ deadline _ => some deadline
  | .run seat =>
    match b.runAt? seat with
    | some r => if r.phase = .waiting then some r.deadline else none
    | none => none
  | .exchange x => some x.nextTime
  | .sleep wake => some wake
  | _ => none

/-- The times for which somebody waits. -/
def timers (b : Bench) : List Nat :=
  b.pendingJobs.filterMap b.jobTimer?
    ++ b.relays.filterMap relayTimer?
    ++ b.seats.filterMap fun
      | .running r => relayTimer? r.relay
      | _ => none

/-- The next time for which somebody waits. -/
def nextTimer? (b : Bench) : Option Nat :=
  ((b.timers).filter (b.hub.now < ·)).min?

/-- Moves the clock to a time, once. -/
def jumpTo (b : Bench) (now : Nat) : Bench :=
  { b with hub := { b.hub with now } }.settle

/-- Whether an extraction is at work. -/
def isExtracting (b : Bench) : Bool :=
  b.seats.any fun
    | .running r => r.workers.any fun w =>
      match w.phase with
      | .reading .. => true
      | _ => false
    | _ => false

/-- Lets the clock jump from timer to timer until a condition holds or nothing can come. -/
def jumpUntil (done : Bench → Bool) : (fuel : Nat) → Bench → Bench
  | 0, b => b
  | fuel + 1, b =>
    if done b || b.isExtracting then b
    else
      match b.nextTimer? with
      | some t => jumpUntil done fuel (b.jumpTo t)
      | none => b

/-- Whether a job is done. -/
def isDone (i : Nat) (b : Bench) : Bool :=
  match b.jobs[i]? with
  | some (.pending _) => false
  | _ => true

/-- Waits for a job. -/
def await (b : Bench) (i : Nat) : Bench :=
  jumpUntil (isDone i) enough b.settle

end Intake.Bench
