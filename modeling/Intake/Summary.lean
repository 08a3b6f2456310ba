import Intake.Event

/-!
# Summaries of event lists

What a list of events says, without the order between the events of different tasks. The
events of one task stay in their order under the task's file name, the tasks are sorted,
and the session's own events keep their places in the list.
-/

namespace Intake

/-- The events of one task. -/
structure TaskTrace where
  fileName : Option String
  states : List EventState
  /-- The last reason that was given. -/
  reason : Option String
  deriving DecidableEq, Repr

namespace TaskTrace

/-- The stages as one text. -/
def statesText (t : TaskTrace) : String :=
  ",".intercalate (t.states.map EventState.label)

/-- The order of traces: by file name, then by stages, then by reason. -/
def before (s t : TaskTrace) : Bool :=
  let a := s.fileName.getD ""
  let b := t.fileName.getD ""
  if a != b then a < b
  else if s.statesText != t.statesText then s.statesText < t.statesText
  else s.reason.getD "" ≤ t.reason.getD ""

end TaskTrace

/-- What a list of events says. -/
structure Summary where
  total : Nat
  /-- The ids of the sessions, sorted. -/
  guids : List String
  /-- The session events with their places. -/
  session : List (Nat × EventState)
  tasks : List TaskTrace
  deriving DecidableEq, Repr

namespace Summary

/-- Adds an event to the traces of the tasks so far. -/
def addTo (traces : List (String × TaskTrace)) (e : Event) : List (String × TaskTrace) :=
  if traces.any (·.1 == e.uuid) then
    traces.map fun (uuid, t) =>
      if uuid == e.uuid then
        (uuid, { t with states := t.states ++ [e.state], reason := e.reason.or t.reason })
      else (uuid, t)
  else traces ++ [(e.uuid, ⟨e.fileName, [e.state], e.reason⟩)]

/-- Drops what repeats itself directly. -/
def distinct : List String → List String
  | a :: b :: r => if a = b then distinct (b :: r) else a :: distinct (b :: r)
  | r => r

/-- The summary of a list of events. -/
def ofEvents (es : List Event) : Summary where
  total := es.length
  guids := distinct ((es.map Event.guid).mergeSort (fun a b => a ≤ b))
  session := (es.zipIdx.filter (·.1.isSessionLevel)).map fun (e, i) => (i, e.state)
  tasks := (((es.filter (!·.isSessionLevel)).foldl addTo []).map Prod.snd).mergeSort
    TaskTrace.before

end Summary
end Intake
