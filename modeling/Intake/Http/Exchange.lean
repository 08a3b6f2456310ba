import Intake.Http.Service

/-!
# Exchanges

A request whose response is a stream, from the moment at which it came. The stream takes
one event after the other from where its events come from; a heartbeat goes out whenever
nothing else did for some time. An event that is there goes before a heartbeat that is due.
-/

namespace Intake.Http

/-- Where the events of a stream come from. -/
inductive Source where
  /-- A sink of its own, up to a deadline. -/
  | sink (sink : Sink) (deadline : Nat)
  /-- The mirror of the session on a seat. -/
  | mirror (seat : Nat)
  deriving DecidableEq, Repr

/-- A stream at work. -/
structure Feed where
  source : Source
  /-- When the next heartbeat is due. -/
  beat : Nat
  /-- What was sent, the last first. -/
  sent : List Record := []
  deriving DecidableEq, Repr

namespace Feed

/-- A stream as it begins. -/
def start (source : Source) (now : Nat) : Feed where
  source := source
  beat := now + EventStream.heartbeatInterval

/-- Sends one more record. -/
def send (s : Feed) (r : Record) (now : Nat) : Feed :=
  { s with sent := r :: s.sent, beat := now + EventStream.heartbeatInterval }

/-- Sends a heartbeat if one is due. -/
def pulse? (s : Feed) (now : Nat) : Option Feed :=
  if s.beat ≤ now then some (s.send .heartbeat now) else none

/-- The response as far as it was sent. -/
def response (s : Feed) : Response :=
  Service.ofStream s.sent.reverse

/-- The next time for which the stream waits. -/
def nextTime (s : Feed) : Nat :=
  match s.source with
  | .sink _ deadline => min s.beat deadline
  | .mirror _ => s.beat

end Feed

/-- A request that is not answered yet. -/
inductive Exchange where
  /-- Waits for a session. -/
  | attaching (attachment : Attachment) (settings : SessionSettings) (appetite : Appetite)
  | streaming (feed : Feed) (appetite : Appetite)

namespace Exchange

/-- The next time for which an exchange waits. -/
def nextTime : Exchange → Nat
  | attaching a _ _ => a.next
  | streaming f _ => f.nextTime

/-- The sink that an exchange holds. -/
def sink? : Exchange → Option Sink
  | streaming { source := .sink s _, .. } _ => some s
  | _ => none

end Exchange
end Intake.Http
