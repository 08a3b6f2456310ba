/-!
# Names

What is held on the bench, by name. A name that is given again takes the new thing.
-/

namespace Intake.Bench

/-- Things by name. -/
abbrev Names (α : Type) := List (String × α)

namespace Names

variable {α : Type}

/-- The thing of a name. -/
def get? (ns : Names α) (name : String) : Option α :=
  (ns.find? (·.1 == name)).map Prod.snd

/-- Takes a name away. -/
def erase (ns : Names α) (name : String) : Names α :=
  ns.filter (·.1 != name)

/-- Gives a name. -/
def put (ns : Names α) (name : String) (x : α) : Names α :=
  ns.erase name ++ [(name, x)]

end Names
end Intake.Bench
