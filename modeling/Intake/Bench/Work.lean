import Intake.Bench.Sessions

/-!
# Work on the bench

How a kind of work becomes a job, what is said of a job, and what the end of a job leaves
behind that is not done.
-/

namespace Intake.Bench

/-! ## Jobs -/

/-- Adds a job; one that is not done becomes a party. -/
def addJob (b : Bench) (state : JobState) : Nat × Bench :=
  let i := b.jobs.length
  let b : Bench := { b with jobs := b.jobs ++ [state] }
  match state with
  | .pending _ => (i, b.enroll [Party.job i])
  | _ => (i, b)

/-- Names a job. -/
def nameJob (b : Bench) (name : Option String) (i : Nat) : Bench :=
  match name with
  | some n => { b with jobNames := b.jobNames.put n i }
  | none => b

/-- What is to be said of a job. -/
def resultOf (b : Bench) (i : Nat) : Answer :=
  match b.jobs[i]? with
  | some (.finished (.drained events)) => .summary (.ofEvents events)
  | some (.finished r) => .result r
  | some .cancelled => .cancelled
  | _ => .pending

/-- What the end of a job that is not done leaves behind. -/
def dropJob (b : Bench) : Job → Bench
  | .forward relay ticket => { b with relays := b.relays.modify relay (·.withdraw ticket) }
  | .shutdown relay => { b with relays := b.relays.modify relay Relay.withdrawStop }
  | .run seat =>
    match b.runAt? seat with
    | some r =>
      let (hub, r) := r.abandon b.hub
      b.putRun seat hub r
    | none => b
  | .exchange (.streaming f _) => b.letGo f.source
  | _ => b

/-- Ends a job, unless it is done. -/
def cancel (b : Bench) (i : Nat) : Bench :=
  match b.jobs[i]? with
  | some (.pending job) =>
    sweep ({ b with
      jobs := b.jobs.set i .cancelled
      parties := b.parties.filter (· != Party.job i) }.dropJob job)
  | _ => b

/-! ## Beginning -/

/-- How work begins: as a job, or with an answer at once. -/
abbrev Begun := Except Answer JobState × Bench

/-- Begins with something of a name, or says that the name in a field is not held. -/
def beginWith {α : Type} (b : Bench) (field : String) (x : Option α) (k : α → Begun) : Begun :=
  match x with
  | some x => k x
  | none => (.error (.noSuch field), b)

/-- Begins to attach a sink. -/
def beginAttach (b : Bench) (id sink : String) (ms : Nat) : Begun :=
  match Attachment.start id b.hub.now ms with
  | .ok a => (.ok (.pending (.attach sink a)), b)
  | .error e => (.ok (.finished (.refused e)), b)

/-- Begins to stop a relay, whose name is not held any more. One that still has to answer
is let go instead. -/
def beginShutdown (b : Bench) (name : String) (i : Nat) : Begun :=
  let b := { b with relayNames := b.relayNames.erase name }
  if b.pendingJobs.any (·.usesRelay i) then (.error .busy, b.sweep)
  else (.ok (.pending (.shutdown i)), { b with relays := b.relays.modify i (·.give .stop) })

/-- Begins to answer a request. -/
def beginRequest (b : Bench) (service : Http.Service) (request : Http.Request) (read : Bool) :
    Begun :=
  let appetite : Http.Appetite :=
    if !read then .nothing else if request.method = "HEAD" then .headers else .whole
  match service.react request b.hub with
  | (.answer response, hub) =>
    (.ok (.finished (.response (response.taken appetite))), { b with hub })
  | (.attach a, hub) =>
    (.ok (.pending (.exchange (.attaching a service.settings appetite))), { b with hub })
  | (.run p, hub) =>
    let (seat, b) := { b with hub }.seat p
    let b := (b.startRun? seat).getD b
    let (_, b) := b.addJob (.pending (.run seat))
    let (state, b) := b.openFeed (.mirror seat) appetite
    (.ok state, b)

/-- Begins a kind of work. -/
def begin (b : Bench) : Start → Begun
  | .watch h =>
    b.beginWith "h" (b.handleNames.get? h) fun handle => (.ok (.pending (.watch handle)), b)
  | .send h event ms =>
    b.beginWith "h" (b.handleNames.get? h) fun handle =>
      (.ok (.pending (.send handle event (b.hub.now + ms))), b)
  | .attach id sink ms => b.beginAttach id sink ms
  | .receive sink ms =>
    b.beginWith "sink" (b.sinkNames.get? sink) fun i =>
      (.ok (.pending (.receive i (b.hub.now + ms))), b)
  | .drain sink ms =>
    b.beginWith "sink" (b.sinkNames.get? sink) fun i =>
      (.ok (.pending (.drain i (b.hub.now + ms) [])), b)
  | .forward relay event =>
    b.beginWith "relay" (b.relayNames.get? relay) fun i =>
      (.ok (.pending (.forward i b.tickets)), { b with
        tickets := b.tickets + 1
        relays := b.relays.modify i (·.submit event b.tickets) })
  | .shutdown relay =>
    b.beginWith "relay" (b.relayNames.get? relay) fun i => b.beginShutdown relay i
  | .barrier name =>
    match b.barrierNames.get? name with
    | some (k, false) =>
      (.ok (.pending (.barrier k)),
        { b with barrierNames := b.barrierNames.put name (k, true) })
    | _ => (.error (.noSuch "b"), b)
  | .run s =>
    b.beginWith "s" (b.seatNames.get? s) fun seat =>
      match b.startRun? seat with
      | some b => (.ok (.pending (.run seat)), b)
      | none => (.error (.noSuch "s"), b)
  | .request service request read => b.beginRequest service request read
  | .sleep ms => (.ok (.pending (.sleep (b.hub.now + ms))), b)

/-- Starts a kind of work under a name, and waits for it or only settles. -/
def start (b : Bench) (work : Start) (name : Option String) (wait : Bool) : Answer × Bench :=
  match b.begin work with
  | (.error answer, b) => (answer, b)
  | (.ok state, b) =>
    let (i, b) := b.addJob state
    let b := b.nameJob name i
    let b := if wait then Bench.await b i else b.settle
    (b.resultOf i, b)

end Intake.Bench
