import Intake.Bench.Command
import Intake.Bench.Turn

/-!
# Sessions on the bench

Files are spooled and a session is prepared on a new seat. A prepared session is run once,
or goes away.
-/

namespace Intake.Bench

/-- Spools files. -/
def spoolAll (hub : Hub) : List Upload → List Submission × Hub
  | [] => ([], hub)
  | u :: us =>
    let (f, spools) := Submission.spooled hub.spools u.fileName u.type u.content
    let spools := if u.unlink then spools.remove f.spool else spools
    let (fs, hub) := spoolAll { hub with spools } us
    (f :: fs, hub)

/-- Puts a prepared session on a new seat. -/
def seat (b : Bench) (p : Prepared) : Nat × Bench :=
  (b.seats.length, { b with seats := b.seats ++ [.prepared p] })

/-- Prepares a session on a new seat. -/
def prepare (b : Bench) (o : Opener) (id : Option String) (files : List Upload)
    (mirror : Bool) : Except SessionError Nat × Bench :=
  let (fs, hub) := spoolAll b.hub files
  match Prepared.open? o.table o.settings id fs hub with
  | (.error e, hub) => (.error e, { b with hub })
  | (.ok p, hub) =>
    let (i, b) := { b with hub }.seat (if mirror then p.takeMirror else p)
    (.ok i, b)

/-- A session that does not run goes away. -/
def dropSeat (b : Bench) (seat : Nat) : Bool × Bench :=
  match b.seats[seat]? with
  | some (.prepared p) =>
    (true, { b with hub := p.discard b.hub, seats := b.seats.set seat .empty })
  | _ => (false, b)

/-- The session on a seat begins to run; its relay is a party from now on. -/
def startRun? (b : Bench) (seat : Nat) : Option Bench :=
  match b.seats[seat]? with
  | some (.prepared p) =>
    some ((b.putRun seat b.hub (.start p b.hub.now)).enroll [.seatRelay seat])
  | _ => none

/-- Takes steps of a run until it has to wait. -/
def driveRun (seat : Nat) : (fuel : Nat) → Bench → Bench
  | 0, b => b
  | fuel + 1, b =>
    match b.advanceRun? seat with
    | some b => driveRun seat fuel b
    | none => b

/-- What the mirror of a session got since the last time. -/
def drainSeat (b : Bench) (seat : Nat) : List Event × Bench :=
  match b.runAt? seat with
  | some r =>
    let (events, relay) := r.relay.drainMirror
    (events, b.putRun seat b.hub { r with relay })
  | none => ([], b)

end Intake.Bench
