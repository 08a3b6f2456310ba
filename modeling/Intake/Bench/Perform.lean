import Intake.Bench.Parts

/-!
# Carrying out commands

A command that refers to a name that is not held does nothing and says which of its names
it was. After each command the bench is settled.
-/

namespace Intake.Bench

/-- Opens a session on a seat with a name; one that had the name goes away. -/
def openSession (b : Bench) (o : Opener) (id : Option String) (files : List Upload)
    (mirror : Bool) (name : String) : Answer × Bench :=
  match b.prepare o id files mirror with
  | (.error e, b) => (.sessionError e, b)
  | (.ok seat, b) =>
    let b : Bench := match b.seatNames.get? name with
      | some old => (b.dropSeat old).2
      | none => b
    let b : Bench := { b with seatNames := b.seatNames.put name seat }
    match b.seats[seat]? with
    | some (.prepared p) => (.session p.id p.files.length, b)
    | _ => (.ok, b)

/-- Opens a session and runs it to its end. -/
def process (b : Bench) (o : Opener) (id : Option String) (files : List Upload) :
    Answer × Bench :=
  match b.prepare o id files false with
  | (.error e, b) => (.sessionError e, b)
  | (.ok seat, b) =>
    b.withHeld "s" (b.startRun? seat) fun b =>
      let (i, b) := b.addJob (.pending (.run seat))
      let b := Bench.await b i
      (b.resultOf i, b)

/-- Begins to run a session whose owner does not take part in the turns. -/
def detach (b : Bench) (seat : Nat) (name : String) : Answer × Bench :=
  b.withHeld "s" (b.startRun? seat) fun b =>
    let b := driveRun seat enough b
    (.detached, { b with detachedNames := b.detachedNames.put name seat })

/-- Carries a command out. -/
def perform (b : Bench) : Command → Answer × Bench
  | .openEntry id as => b.openEntry id as
  | .lookup id as => b.lookUp id as
  | .closeId id => b.closeId id
  | .registry id => (.registry (b.hub.registry.contains id) b.hub.registry.size, b)
  | .renewRegistry => (.ok, b.withRegistry b.hub.registry.renew)
  | .handle h =>
    b.withHeld "h" ((b.handleNames.get? h).bind b.hub.registry.entry?) fun e =>
      (describeEntry e, b)
  | .closeHandle h => b.withHeld "h" (b.handleNames.get? h) b.closeHandle
  | .dropHandle h =>
    b.withHeld "h" (b.handleNames.get? h) fun _ =>
      (.dropped true, { b with handleNames := b.handleNames.erase h })
  | .take h as => b.withHeld "h" (b.handleNames.get? h) fun handle => b.takePlace handle as
  | .poke rx => b.withHeld "rx" (b.receiverNames.get? rx) b.poke
  | .dropReceiver rx =>
    b.withHeld "rx" (b.receiverNames.get? rx) fun x =>
      (.dropped true, { b.dropReceiver (some x) with receiverNames := b.receiverNames.erase rx })
  | .dropSink sink =>
    b.withHeld "sink" (b.sinkNames.get? sink) fun _ =>
      (.dropped true, { b with sinkNames := b.sinkNames.erase sink })
  | .relay h ms capacity progress mirror mirrorAs as =>
    b.withHeld "h" (b.handleNames.get? h) fun handle =>
      b.addRelay handle ms capacity progress mirror mirrorAs as
  | .emit q count event => b.withHeld "q" (b.queueNames.get? q) fun i => b.emit i count event
  | .dropQueue q =>
    b.withHeld "q" (b.queueNames.get? q) fun i =>
      (.dropped true, { b.dropQueue (some i) with queueNames := b.queueNames.erase q })
  | .barrier as => b.addBarrier as
  | .enter name as => b.enterBarrier name as
  | .leave name ticket => b.leaveBarrier name ticket
  | .counts name =>
    b.withHeld "b" (b.barrierNames.get? name) fun (k, _) => (b.countsOf k, b)
  | .opener as o =>
    (.openSessions b.hub.registry.size, { b with openerNames := b.openerNames.put as o })
  | .session opener id files mirror as =>
    b.withHeld "orch" (b.openerNames.get? opener) fun o => b.openSession o id files mirror as
  | .dropSession s =>
    b.withHeld "s" (b.seatNames.get? s) fun seat =>
      let (was, b) := b.dropSeat seat
      (.dropped was, b)
  | .mirror s =>
    b.withHeld "s" (b.seatNames.get? s) fun seat =>
      let (events, b) := b.drainSeat seat
      (.summary (.ofEvents events), b)
  | .process opener id files =>
    b.withHeld "orch" (b.openerNames.get? opener) fun o => b.process o id files
  | .release gate => (.ok, { b with hub := { b.hub with gates := gate :: b.hub.gates } })
  | .advance ms => (.ok, b.jumpTo (b.hub.now + ms))
  | .poll job => b.withHeld "of" (b.jobNames.get? job) fun i => (b.resultOf i, b)
  | .await job =>
    b.withHeld "of" (b.jobNames.get? job) fun i =>
      let b := Bench.await b i
      (b.resultOf i, b)
  | .abort job =>
    b.withHeld "of" (b.jobNames.get? job) fun i =>
      let b := b.cancel i
      (b.resultOf i, b)
  | .start work as wait => b.start work as wait
  | .startDetached s as => b.withHeld "s" (b.seatNames.get? s) fun seat => b.detach seat as

/-- Carries a command out and settles the bench. -/
def execute (b : Bench) (c : Command) : Answer × Bench :=
  let (answer, b) := b.perform c
  (answer, b.sweep.settle)

end Intake.Bench
