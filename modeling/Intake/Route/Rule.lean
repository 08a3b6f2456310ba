import Intake.Route

/-!
# Rules

Routes given as data: a pattern for the files, and what happens to a file that fits. Put
in front of the standard routes, rules take files away from them.
-/

namespace Intake

/-- What a file must be like; what is left out fits every file. -/
structure Rule.Pattern where
  /-- The beginning of the name. -/
  begins : Option String := none
  extension : Option String := none
  /-- The declared type without its parameters. -/
  essence : Option String := none
  detected : Option String := none
  /-- Looking at a file makes the test give up. -/
  explosive : Bool := false
  deriving DecidableEq, Repr

/-- What happens to a file. -/
inductive Rule.Reaction where
  | give (text : String)
  | malformed (detail : String)
  | encoding
  | io (detail : String)
  | giveUp (note : Option String)
  /-- Waits for a gate, then reads the file as text. -/
  | waitFor (gate : String)
  deriving DecidableEq, Repr

/-- A pattern and a reaction, under a name. -/
structure Rule where
  name : String
  pattern : Rule.Pattern := {}
  reaction : Rule.Reaction
  deriving DecidableEq, Repr

namespace Rule

/-- Holds if a demand, where there is one, is met. -/
def demands {α : Type} (d : Option α) (met : α → Bool) : Bool :=
  match d with
  | some x => met x
  | none => true

/-- Whether a file fits a pattern. -/
def Pattern.test (m : Pattern) (p : Probe) : Conduct Bool :=
  if m.explosive then .panicked (some "predicate exploded")
  else .returned
    (demands m.begins (fun s => s.toList.isPrefixOf p.fileName.toList)
      && demands m.extension (fun e => p.extension? == some e)
      && demands m.essence (fun e => p.declaredEssence? == some e)
      && demands m.detected (fun d => p.detected == d))

/-- What a reaction makes of a file. -/
def Reaction.extract (r : Reaction) (content : Bytes) : Conduct (Except ExtractionError String) :=
  match r with
  | give text => .returned (.ok text)
  | malformed detail => .returned (.error (.malformed detail))
  | encoding => .returned (.error .encoding)
  | io detail => .returned (.error (.io detail))
  | giveUp note => .panicked note
  | waitFor _ => .returned (PlainText.extract content)

/-- The gate that a reaction waits for. -/
def Reaction.gate? : Reaction → Option String
  | waitFor gate => some gate
  | _ => none

/-- The route that a rule stands for. -/
def route (r : Rule) : Route where
  test := r.pattern.test
  extractor := { name := r.name, gate := r.reaction.gate?, extract := r.reaction.extract }

end Rule

/-- Rules, and behind them the standard routes if the number of preview rows is given. -/
def ExtractorTable.ofRules (rules : List Rule) (rows : Option Nat) : ExtractorTable where
  routes := rules.map Rule.route ++ (match rows with
    | some n => standardRoutes n
    | none => [])

end Intake
