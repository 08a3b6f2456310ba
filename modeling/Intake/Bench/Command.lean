import Intake.Bench.State
import Intake.Summary

/-!
# Commands to the bench

What the bench can be told, and what it answers.
-/

namespace Intake.Bench

/-- A file as it is submitted. -/
structure Upload where
  fileName : String
  type : Option String
  content : Bytes
  /-- The spooled file is removed as soon as it is written. -/
  unlink : Bool := false

/-- The kinds of work that can be started. -/
inductive Start where
  | watch (h : String)
  | send (h : String) (event : Event) (ms : Nat)
  | attach (id sink : String) (ms : Nat)
  | receive (sink : String) (ms : Nat)
  | drain (sink : String) (ms : Nat)
  | forward (relay : String) (event : Event)
  | shutdown (relay : String)
  | barrier (b : String)
  | run (s : String)
  /-- Sends a request to a service; the body of the answer is read, or thrown away. -/
  | request (service : Http.Service) (request : Http.Request) (read : Bool)
  | sleep (ms : Nat)

/-- The commands. -/
inductive Command where
  | openEntry (id as : String)
  | lookup (id as : String)
  | closeId (id : String)
  | registry (id : String)
  | renewRegistry
  | handle (h : String)
  | closeHandle (h : String)
  | dropHandle (h : String)
  | take (h as : String)
  | poke (rx : String)
  | dropReceiver (rx : String)
  | dropSink (sink : String)
  | relay (h : String) (ms capacity : Nat) (progress : Bool) (mirror : Option Nat)
      (mirrorAs : Option String) (as : String)
  | emit (q : String) (count : Nat) (event : Event)
  | dropQueue (q : String)
  | barrier (as : String)
  | enter (b as : String)
  | leave (b ticket : String)
  | counts (b : String)
  | opener (as : String) (opener : Opener)
  | session (opener : String) (id : Option String) (files : List Upload) (mirror : Bool)
      (as : String)
  | dropSession (s : String)
  | mirror (s : String)
  | process (opener : String) (id : Option String) (files : List Upload)
  | release (gate : String)
  | advance (ms : Nat)
  | poll (job : String)
  | await (job : String)
  | abort (job : String)
  | start (work : Start) (as : Option String) (wait : Bool)
  | startDetached (s as : String)

/-- The answers. -/
inductive Answer where
  | ok
  /-- The name in this field is not held. -/
  | noSuch (field : String)
  | pending
  | cancelled
  | detached
  | sessionError (error : SessionError)
  | found (id : Option String)
  | closed (was : Bool)
  | registry (contains : Bool) (size : Nat)
  | handle (id : String) (attached closed : Bool) (text : String)
  | dropped (was : Bool)
  | taken (was : Bool)
  | event (event : Event)
  /-- Nothing is there, and perhaps nothing can come. -/
  | nothing (disconnected : Bool)
  | accepted (count : Nat)
  /-- The relay is still in use. -/
  | busy
  | counts (outstanding completed : Nat)
  | openSessions (size : Nat)
  | session (id : String) (files : Nat)
  | summary (summary : Summary)
  | result (result : Result)

end Intake.Bench
