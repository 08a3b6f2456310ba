/-!
# The completion barrier

A barrier counts the tickets that are out and those that came back. Who waits at it goes
on once no ticket is out, and learns how many came back.
-/

namespace Intake

/-- The counts of a barrier. -/
structure Barrier where
  outstanding : Nat := 0
  completed : Nat := 0
  deriving DecidableEq, Repr

namespace Barrier

/-- Hands out a ticket. -/
def enter (b : Barrier) : Barrier :=
  { b with outstanding := b.outstanding + 1 }

/-- Takes a ticket back. -/
def leave (b : Barrier) : Barrier :=
  { outstanding := b.outstanding - 1, completed := b.completed + 1 }

/-- The number of tickets that came back, once none is out. -/
def passed? (b : Barrier) : Option Nat :=
  if b.outstanding = 0 then some b.completed else none

end Barrier
end Intake
