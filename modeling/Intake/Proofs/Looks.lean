import Intake.Proofs.Outlet

/-!
# The looks of a delivery

A delivery that waits looks at three things one after the other, and begins again: whether its
entry is closed, whether its deadline has come, and whether it can leave its event. Others take
their turns between two looks. `SendLook.look` is one of them, and `Registry.deliver?` is a round of
three with nothing in between.
-/

namespace Intake

/-- What a delivery looks at next. -/
inductive SendLook where
  /-- Whether the entry is closed. This is where the delivery waits, and where it can be given
  up. -/
  | token
  /-- Whether its deadline has come. -/
  | clock
  /-- Whether it can leave its event. -/
  | slot
  deriving DecidableEq, Repr

namespace SendLook

/-- What a look comes to. -/
inductive Result where
  /-- Nothing is decided, and another look is next. -/
  | goes (next : SendLook)
  | decides (outcome : DeliveryOutcome) (registry : Registry)

/-- One look. -/
def look (next : SendLook) (r : Registry) (h : Handle) (event : Event) (now deadline : Nat) :
    Result :=
  match next with
  | .token => if r.isClosed h then .decides .closed r else .goes .clock
  | .clock => if deadline ≤ now then .decides .timedOut r else .goes .slot
  | .slot =>
    match r.offer? h event with
    | some (outcome, r) => .decides outcome r
    | none => .goes .token

/-- How a look leads on to another one. -/
inductive Turns (next : SendLook) (r : Registry) (h : Handle) (now deadline : Nat) :
    SendLook → Prop
  | opened : next = .token → r.isClosed h = false → Turns next r h now deadline .clock
  | early : next = .clock → now < deadline → Turns next r h now deadline .slot
  | waits : next = .slot → Turns next r h now deadline .token

/-- How a look decides. -/
inductive Returns (next : SendLook) (r : Registry) (h : Handle) (event : Event)
    (now deadline : Nat) : DeliveryOutcome → Registry → Prop
  | closed : next = .token → r.isClosed h = true → Returns next r h event now deadline .closed r
  | late : next = .clock → deadline ≤ now → Returns next r h event now deadline .timedOut r
  | offered {outcome : DeliveryOutcome} {r' : Registry} : next = .slot →
      r.offer? h event = some (outcome, r') → Returns next r h event now deadline outcome r'

variable {next : SendLook} {r : Registry} {h : Handle} {event : Event} {now deadline : Nat}

theorem turns_of_look {next' : SendLook} (hl : next.look r h event now deadline = .goes next') :
    next.Turns r h now deadline next' := by
  cases next with
  | token =>
      simp only [look] at hl
      split at hl
      · exact absurd hl (by simp)
      · rename_i hc
        cases hl
        exact .opened rfl (by simpa using hc)
  | clock =>
      simp only [look] at hl
      split at hl
      · exact absurd hl (by simp)
      · rename_i hd
        cases hl
        exact .early rfl (Nat.not_le.mp hd)
  | slot =>
      simp only [look] at hl
      split at hl
      · exact absurd hl (by simp)
      · cases hl
        exact .waits rfl

theorem returns_of_look {o : DeliveryOutcome} {r' : Registry}
    (hl : next.look r h event now deadline = .decides o r') :
    next.Returns r h event now deadline o r' := by
  cases next with
  | token =>
      simp only [look] at hl
      split at hl
      · rename_i hc
        cases hl
        exact .closed rfl hc
      · exact absurd hl (by simp)
  | clock =>
      simp only [look] at hl
      split at hl
      · rename_i hd
        cases hl
        exact .late rfl hd
      · exact absurd hl (by simp)
  | slot =>
      simp only [look] at hl
      split at hl
      · rename_i ho
        cases hl
        exact .offered rfl ho
      · exact absurd hl (by simp)

/-- Three looks lead back to where they began. -/
theorem Turns.round {next₁ next₂ next₃ : SendLook} (h₁ : token.Turns r h now deadline next₁)
    (h₂ : next₁.Turns r h now deadline next₂) (h₃ : next₂.Turns r h now deadline next₃) :
    next₃ = .token := by
  -- each look but the one whose turn it is leads nowhere
  cases h₁ with
  | early hn _ => exact absurd hn (by simp)
  | waits hn => exact absurd hn (by simp)
  | opened _ _ =>
      cases h₂ with
      | opened hn _ => exact absurd hn (by simp)
      | waits hn => exact absurd hn (by simp)
      | early _ _ =>
          cases h₃ with
          | opened hn _ => exact absurd hn (by simp)
          | early hn _ => exact absurd hn (by simp)
          | waits _ => rfl

end SendLook

/-- What comes of a look and of those behind it. -/
def SendLook.Result.followed (l : Result) (k : SendLook → Result) : Result :=
  match l with
  | .goes next => k next
  | .decides outcome r => .decides outcome r

/-- The decision, if there is one. -/
def SendLook.Result.decision? : Result → Option (DeliveryOutcome × Registry)
  | .goes _ => none
  | .decides outcome r => some (outcome, r)

/-- A round of three looks, with nothing in between. -/
def SendLook.round (r : Registry) (h : Handle) (event : Event) (now deadline : Nat) : Result :=
  (token.look r h event now deadline).followed fun next =>
    (next.look r h event now deadline).followed fun next => next.look r h event now deadline

/-- **A delivery is a round of looks**, if nothing comes between them. -/
theorem Registry.deliver?_looks {r : Registry} {h : Handle} {e : Entry} (he : r.entry? h = some e)
    (event : Event) (now deadline : Nat) :
    r.deliver? h event now deadline = (SendLook.round r h event now deadline).decision? := by
  have hclosed : r.isClosed h = e.closed := by
    unfold isClosed
    rw [he]
  have hoffer : r.offer? h event
      = (e.offer? event).map fun x => (x.1, r.modify h fun _ => x.2) := by
    unfold offer?
    rw [he]
  unfold deliver? Entry.deliver? SendLook.round
  rw [he]
  simp only [SendLook.look]
  rw [hclosed]
  by_cases hc : e.closed = true
  · rw [if_pos hc, if_pos hc, Option.map_some, modify_same he]
    rfl
  · rw [if_neg hc, if_neg hc]
    dsimp only [SendLook.Result.followed]
    by_cases hd : deadline ≤ now
    · rw [if_pos hd, if_pos hd, Option.map_some, modify_same he]
      rfl
    · rw [if_neg hd, if_neg hd]
      dsimp only
      rw [hoffer]
      cases e.offer? event <;> rfl

end Intake
