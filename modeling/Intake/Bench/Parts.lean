import Intake.Bench.Work
import Intake.Route.Rule
import Intake.Text.Quoted

/-!
# Single parts on the bench

Entries with their handles and receivers, relays with their queues, and barriers with their
tickets, each under a name.
-/

namespace Intake.Bench

/-- Answers about something of a name, or says that the name in a field is not held. -/
def withHeld {α : Type} (b : Bench) (field : String) (x : Option α) (k : α → Answer × Bench) :
    Answer × Bench :=
  match x with
  | some x => k x
  | none => (.noSuch field, b)

/-! ## What goes away -/

/-- A receiver goes away. -/
def dropReceiver (b : Bench) : Option Receiver → Bench
  | some (.entry h) => b.withRegistry (b.hub.registry.leave h)
  | some (.mirror i) => { b with relays := b.relays.modify i Relay.abandonMirror }
  | none => b

/-- Names a receiver; one that had the name goes away. -/
def nameReceiver (b : Bench) (name : String) (x : Receiver) : Bench :=
  let b := b.dropReceiver (b.receiverNames.get? name)
  { b with receiverNames := b.receiverNames.put name x }

/-- A queue goes away. -/
def dropQueue (b : Bench) : Option Nat → Bench
  | some i => { b with relays := b.relays.modify i Relay.release }
  | none => b

/-- A ticket goes back to its barrier. -/
def dropTicket (b : Bench) : Option Nat → Bench
  | some k => { b with barriers := b.barriers.modify k Barrier.leave }
  | none => b

/-! ## Entries -/

/-- Opens an entry. -/
def openEntry (b : Bench) (id name : String) : Answer × Bench :=
  match b.hub.registry.open? id with
  | some (handle, registry) =>
    (.ok, { b.withRegistry registry with handleNames := b.handleNames.put name handle })
  | none => (.sessionError (.alreadyOpen id), b)

/-- Looks an entry up. -/
def lookUp (b : Bench) (id name : String) : Answer × Bench :=
  match b.hub.registry.lookup? id with
  | some handle => (.found (some id), { b with handleNames := b.handleNames.put name handle })
  | none => (.found none, b)

/-- Closes the entry of an id. -/
def closeId (b : Bench) (id : String) : Answer × Bench :=
  let (was, registry) := b.hub.registry.close id
  (.closed was, b.withRegistry registry)

/-- Closes the entry of a handle. -/
def closeHandle (b : Bench) (handle : Handle) : Answer × Bench :=
  let (was, registry) := b.hub.registry.closeEntry handle
  (.closed was, b.withRegistry registry)

/-- The text of an entry. -/
def showHandle (e : Entry) : String :=
  "ChannelHandle \x7b session_id: " ++ Text.quoted e.session ++ ", epoch: " ++ toString e.epoch
    ++ ", closed: " ++ toString e.closed ++ " \x7d"

/-- What is said of an entry. -/
def describeEntry (e : Entry) : Answer :=
  .handle e.session e.isAttached e.closed (showHandle e)

/-- Takes the reader's place of an entry. -/
def takePlace (b : Bench) (handle : Handle) (name : String) : Answer × Bench :=
  match b.hub.registry.take? handle with
  | some registry => (.taken true, (b.withRegistry registry).nameReceiver name (.entry handle))
  | none => (.taken false, b)

/-- What a receiver gets at once. -/
def poke (b : Bench) : Receiver → Answer × Bench
  | .entry h =>
    match (b.hub.registry.entry? h).bind Entry.slot with
    | some event =>
      (.event event,
        b.withRegistry (b.hub.registry.modify h fun e => { e with slot := none }))
    | none => (.nothing (!b.isHeld h), b)
  | .mirror i =>
    match b.relays[i]? with
    | some r =>
      match r.popMirror? with
      | some (event, r) => (.event event, { b with relays := b.relays.set i r })
      | none => (.nothing (r.mirror.isNone || r.givers = 0), b)
    | none => (.nothing true, b)

/-! ## Relays -/

/-- Starts a relay with a queue of the same name. -/
def addRelay (b : Bench) (handle : Handle) (ms capacity : Nat) (progress : Bool)
    (mirror : Option Nat) (mirrorName : Option String) (name : String) : Answer × Bench :=
  let i := b.relays.length
  let mirrorOf := mirror.map fun n => ({ capacity := max n 1 } : Mirror)
  let r := Relay.start handle (b.hub.now + ms) capacity (.ofStreamProgress progress) mirrorOf 2
  let b := b.dropQueue (b.queueNames.get? name)
  let b := { b with
    relays := b.relays ++ [r]
    ownedRelays := b.ownedRelays ++ [i]
    relayNames := b.relayNames.put name i
    queueNames := b.queueNames.put name i }.enroll [.relay i]
  match mirror, mirrorName with
  | some _, some name => (.ok, b.nameReceiver name (.mirror i))
  | _, _ => (.ok, b)

/-- Hands an event over several times: how often it was accepted. -/
def emitTimes (e : Event) : (n : Nat) → Nat × Relay → Nat × Relay
  | 0, s => s
  | n + 1, (accepted, r) =>
    let (ok, r) := r.emit e
    emitTimes e n (if ok then accepted + 1 else accepted, r)

/-- Hands an event over to a relay several times. -/
def emit (b : Bench) (i count : Nat) (event : Event) : Answer × Bench :=
  b.withHeld "q" b.relays[i]? fun r =>
    let (accepted, r) := emitTimes event count (0, r)
    (.accepted accepted, { b with relays := b.relays.set i r })

/-! ## Barriers -/

/-- The counts of a barrier. -/
def countsOf (b : Bench) (k : Nat) : Answer :=
  let counts := (b.barriers[k]?).getD {}
  .counts counts.outstanding counts.completed

/-- Sets a barrier up. -/
def addBarrier (b : Bench) (name : String) : Answer × Bench :=
  (.ok, { b with
    barriers := b.barriers ++ [{}]
    barrierNames := b.barrierNames.put name (b.barriers.length, false) })

/-- Gives a ticket out. A barrier at which somebody waits gives none. -/
def enterBarrier (b : Bench) (barrier name : String) : Answer × Bench :=
  match b.barrierNames.get? barrier with
  | some (k, false) =>
    let b := { b with barriers := b.barriers.modify k Barrier.enter }
    let b := b.dropTicket (b.ticketNames.get? name)
    let b := { b with ticketNames := b.ticketNames.put name k }
    (b.countsOf k, b)
  | _ => (.noSuch "b", b)

/-- Takes a ticket back. -/
def leaveBarrier (b : Bench) (barrier ticket : String) : Answer × Bench :=
  b.withHeld "b" (b.barrierNames.get? barrier) fun (k, _) =>
    b.withHeld "ticket" (b.ticketNames.get? ticket) fun j =>
      let b := { b.dropTicket (some j) with ticketNames := b.ticketNames.erase ticket }
      (b.countsOf k, b)

end Intake.Bench
