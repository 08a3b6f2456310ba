import Intake.Registry
import Intake.Text.Blank

/-!
# Delivery sinks

A sink is the one reader of a session's entry. It may come before its session: attaching
looks the session up again and again until a grace period is over. The stream ends with
the session's last event, when the entry is closed, or at a deadline. A sink that goes
away closes its entry.
-/

namespace Intake

/-- Why no sink could be attached. -/
inductive SinkError where
  | missingSessionId
  | unknownSession (id : String)
  | alreadyAttached (id : String)
  deriving DecidableEq, Repr

/-- The wording. -/
def SinkError.message : SinkError → String
  | missingSessionId => "empty guid param"
  | unknownSession _ => "empty stream"
  | alreadyAttached id => "stream " ++ id ++ " already has a reader"

/-- The reader of an entry. -/
structure Sink where
  handle : Handle
  /-- The stream is over. -/
  finished : Bool := false
  deriving DecidableEq, Repr

namespace Sink

/-- The sink after it was told something. The session's last event is the last, and so is the
end. -/
def told (s : Sink) : Option Event → Sink
  | some event => { s with finished := event.state.isTerminal }
  | none => { s with finished := true }

/-- One look at the stream: the next event, or none at its end; nothing if the sink has to
wait. After the end it stays at the end. -/
def receive? (s : Sink) (r : Registry) (now deadline : Nat) :
    Option (Option Event × Sink × Registry) :=
  if s.finished then some (none, s, r)
  else (r.receive? s.handle now deadline).map fun (answer, r) => (answer, s.told answer, r)

/-- The sink goes away: its entry is closed and the reader's place left. -/
def drop (s : Sink) (r : Registry) : Registry :=
  ((r.closeEntry s.handle).2).leave s.handle

end Sink

/-- A sink that is being attached. -/
structure Attachment where
  /-- The session's id without blanks around it. -/
  id : String
  /-- From this time on a look-up that fails is the last one. -/
  giveUp : Nat
  /-- The time of the next look-up. -/
  next : Nat
  deriving DecidableEq, Repr

namespace Attachment

/-- The time between two look-ups. -/
def pollInterval : Nat := 100

/-- Begins to attach; without an id there is nothing to wait for. -/
def start (id : String) (now grace : Nat) : Except SinkError Attachment :=
  let id := Text.trim id
  if id.isEmpty then .error .missingSessionId
  else .ok { id, giveUp := now + grace, next := now }

/-- How a look-up ends. -/
inductive Step where
  | attached (sink : Sink) (registry : Registry)
  | failed (error : SinkError)
  | again (attachment : Attachment)

/-! A look-up reads the registry first. Where it finds an entry it claims the reader's place of
that; where it finds none it reads the clock, to give up or to rest until the next time. `step?`
is all this with nothing in between. -/

/-- What the registry has for the id, once it is time to look. -/
def look? (a : Attachment) (r : Registry) (now : Nat) : Option (Option Handle) :=
  if now < a.next then none else some (r.lookup? a.id)

/-- Claims the reader's place of the entry that was found. -/
def claim (a : Attachment) (h : Handle) (r : Registry) : Step :=
  match r.take? h with
  | some r => .attached { handle := h } r
  | none => .failed (.alreadyAttached a.id)

/-- Whether to give up after nothing was found. -/
def isOver (a : Attachment) (now : Nat) : Bool :=
  a.giveUp ≤ now

/-- Rests until the next look-up. -/
def rest (a : Attachment) (now : Nat) : Attachment :=
  { a with next := now + pollInterval }

/-- Looks the session up, once it is time to. -/
def step? (a : Attachment) (r : Registry) (now : Nat) : Option Step :=
  match a.look? r now with
  | none => none
  | some (some h) => some (a.claim h r)
  | some none =>
    if a.isOver now then some (.failed (.unknownSession a.id)) else some (.again (a.rest now))

end Attachment
end Intake
