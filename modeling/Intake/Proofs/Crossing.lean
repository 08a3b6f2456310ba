import Intake.Barrier

/-!
# Crossing a barrier

A barrier gives out tickets until somebody waits at it; from then on they only come back. The one
who waits looks at the counts once, and again only after they have changed, so all that is ever
seen are the counts as they are at that time: how often no ticket was out before cannot be seen.
It does not matter, because `Inv` holds at every time: the tickets that are out and those that came
back are together all that were given out.

`crossing_counts` says what follows for every order in which tickets are given out and come back.
-/

namespace Intake

/-- Where the one stands who crosses a barrier. -/
inductive Crossing.Stage where
  /-- Nobody waits yet, and tickets are given out. -/
  | open
  /-- Somebody waits, and has seen the counts after so many changes, if at all. -/
  | waiting (seen : Option Nat)
  /-- The barrier was crossed, and so many tickets had come back. -/
  | crossed (completions : Nat)
  /-- The barrier, or the wait at it, was given up. -/
  | left
  deriving DecidableEq, Repr

/-- A barrier with its tickets. -/
structure Crossing where
  barrier : Barrier := {}
  /-- How often the counts have changed. -/
  changes : Nat := 0
  /-- The tickets that are out. They are numbered in the order in which they were given out. -/
  live : List Nat := []
  /-- How many tickets were given out. -/
  issued : Nat := 0
  stage : Crossing.Stage := .open
  deriving DecidableEq, Repr

namespace Crossing

/-- What can happen next. -/
inductive Move where
  | enter
  /-- A ticket comes back, whatever became of the one who had it. -/
  | drop (ticket : Nat)
  /-- Somebody begins to wait. Who waits has the barrier, and it gives no more tickets out. -/
  | wait
  /-- The one who waits goes on, if it can. -/
  | poll
  | giveUp
  deriving DecidableEq, Repr

/-- Looks at the counts. -/
def look (c : Crossing) : Crossing :=
  match c.barrier.passed? with
  | some n => { c with stage := .crossed n }
  | none => { c with stage := .waiting (some c.changes) }

/-- The state of things after a move. A move that cannot be made changes nothing. -/
def move (c : Crossing) : Move → Crossing
  | .enter =>
    match c.stage with
    | .open => { c with
        barrier := c.barrier.enter
        changes := c.changes + 1
        live := c.live ++ [c.issued]
        issued := c.issued + 1 }
    | _ => c
  | .drop ticket =>
    if ticket ∈ c.live then { c with
      barrier := c.barrier.leave
      changes := c.changes + 1
      live := c.live.erase ticket }
    else c
  | .wait =>
    match c.stage with
    | .open => { c with stage := .waiting none }
    | _ => c
  | .poll =>
    match c.stage with
    | .waiting none => c.look
    | .waiting (some seen) => if seen = c.changes then c else c.look
    | _ => c
  | .giveUp =>
    match c.stage with
    | .open | .waiting _ => { c with stage := .left }
    | _ => c

/-- The state of things after some moves. -/
def play (c : Crossing) (ms : List Move) : Crossing :=
  ms.foldl move c

/-- Holds of the moves that leave the barrier to those who enter. -/
def Move.keepsOpen : Move → Bool
  | .wait | .giveUp => false
  | _ => true

/-! ## The invariant -/

/-- **The invariant of a barrier and its tickets.** -/
structure Inv (c : Crossing) : Prop where
  outstanding : c.barrier.outstanding = c.live.length
  total : c.barrier.outstanding + c.barrier.completed = c.issued
  distinct : c.live.Nodup
  numbered : ∀ ticket ∈ c.live, ticket < c.issued
  /-- Counts that have not changed since they were seen have a ticket out. -/
  waiting : ∀ seen, c.stage = .waiting (some seen) → seen ≤ c.changes
    ∧ (seen = c.changes → c.live ≠ [])
  crossed : ∀ n, c.stage = .crossed n → n = c.issued ∧ c.live = []

variable {c : Crossing}

theorem inv_empty : Inv {} where
  outstanding := rfl
  total := rfl
  distinct := List.nodup_nil
  numbered := List.forall_mem_nil _
  waiting := fun _ h => absurd h (by simp)
  crossed := fun _ h => absurd h (by simp)

/-- Only the one who waits has moved, and has not crossed. -/
theorem Inv.rest (h : Inv c) {stage : Stage}
    (hwaiting : ∀ seen, stage = .waiting (some seen) → seen ≤ c.changes
      ∧ (seen = c.changes → c.live ≠ []))
    (hcrossed : ∀ n, stage ≠ .crossed n) : Inv { c with stage } where
  outstanding := h.outstanding
  total := h.total
  distinct := h.distinct
  numbered := h.numbered
  waiting := hwaiting
  crossed := fun n hn => absurd hn (hcrossed n)

theorem Inv.passed? (h : Inv c) :
    c.barrier.passed? = if c.live = [] then some c.issued else none := by
  have hout := h.outstanding
  have htotal := h.total
  unfold Barrier.passed?
  by_cases hl : c.live = []
  · rw [hl, List.length_nil] at hout
    rw [if_pos hout, if_pos hl]
    congr 1
    omega
  · have hpos := List.length_pos_iff.mpr hl
    rw [if_neg (by omega), if_neg hl]

theorem inv_look (h : Inv c) : Inv c.look := by
  unfold look
  rw [h.passed?]
  by_cases hl : c.live = []
  · rw [if_pos hl]
    refine ⟨h.outstanding, h.total, h.distinct, h.numbered, fun _ hs => absurd hs (by simp), ?_⟩
    intro n hn
    cases hn
    exact ⟨rfl, hl⟩
  · rw [if_neg hl]
    refine h.rest (fun seen hs => ?_) (by simp)
    cases hs
    exact ⟨Nat.le_refl _, fun _ => hl⟩

/-- **Preserved by every move.** -/
theorem inv_move (h : Inv c) (m : Move) : Inv (c.move m) := by
  have hout := h.outstanding
  have htotal := h.total
  cases m with
  | enter =>
      dsimp only [move]
      split
      · rename_i hs
        have hnew : c.issued ∉ c.live := fun hm => Nat.lt_irrefl _ (h.numbered _ hm)
        refine ⟨?_, ?_, ?_, ?_, ?_, ?_⟩
        · show c.barrier.outstanding + 1 = (c.live ++ [c.issued]).length
          rw [List.length_append, hout]
          rfl
        · show c.barrier.outstanding + 1 + c.barrier.completed = c.issued + 1
          omega
        · refine List.nodup_append.mpr ⟨h.distinct, List.pairwise_singleton _ _, ?_⟩
          rintro ticket hm _ hone rfl
          exact hnew (List.mem_singleton.mp hone ▸ hm)
        · intro ticket hm
          rcases List.mem_append.mp hm with hm | hm
          · exact Nat.lt_succ_of_lt (h.numbered ticket hm)
          · rw [List.mem_singleton.mp hm]
            exact Nat.lt_succ_self _
        · intro seen hw
          exact absurd (hs.symm.trans hw) (by simp)
        · intro n hn
          exact absurd (hs.symm.trans hn) (by simp)
      · exact h
  | drop ticket =>
      dsimp only [move]
      split
      · rename_i hm
        have hlen := List.length_erase_of_mem hm
        have hpos := List.length_pos_of_mem hm
        refine ⟨?_, ?_, h.distinct.erase ticket, ?_, ?_, ?_⟩
        · show c.barrier.outstanding - 1 = (c.live.erase ticket).length
          omega
        · -- a ticket is out, so the one that comes back was counted
          show c.barrier.outstanding - 1 + (c.barrier.completed + 1) = c.issued
          omega
        · exact fun other ho => h.numbered other (List.mem_of_mem_erase ho)
        · intro seen hw
          have hseen := (h.waiting seen hw).1
          exact ⟨Nat.le_succ_of_le hseen, fun heq => absurd heq (by simp only; omega)⟩
        · intro n hn
          rw [(h.crossed n hn).2] at hm
          exact absurd hm List.not_mem_nil
      · exact h
  | wait =>
      dsimp only [move]
      split
      · exact h.rest (by simp) (by simp)
      · exact h
  | poll =>
      dsimp only [move]
      split
      · exact inv_look h
      · split
        · exact h
        · exact inv_look h
      · exact h
  | giveUp =>
      dsimp only [move]
      split
      · exact h.rest (by simp) (by simp)
      · exact h.rest (by simp) (by simp)
      · exact h

theorem inv_play (h : Inv c) (ms : List Move) : Inv (c.play ms) := by
  induction ms generalizing c with
  | nil => exact h
  | cons m ms ih => exact ih (inv_move h m)

/-! ## What follows -/

/-- **Counts that are right.** -/
structure Counts (c : Crossing) : Prop where
  /-- The tickets that are out, none of them twice. -/
  outstanding : c.barrier.outstanding = c.live.length ∧ c.live.Nodup
  /-- All tickets are out or came back. -/
  total : c.barrier.outstanding + c.barrier.completed = c.issued
  /-- A ticket that comes back was counted as out, so the count goes down by one. -/
  exact : ∀ ticket ∈ c.live, (c.move (.drop ticket)).barrier.outstanding + 1 = c.barrier.outstanding
  /-- While a ticket is out the barrier is not crossed. -/
  blocked : c.live ≠ [] → ∀ n, c.stage ≠ .crossed n ∧ (c.move .poll).stage ≠ .crossed n
  /-- Who waits while none is out crosses the barrier with the next step. -/
  resolves : ∀ seen, c.stage = .waiting seen → c.live = [] →
    (c.move .poll).stage = .crossed c.issued
  /-- Who has crossed it knows the number of all tickets, and it stays at that. -/
  value : ∀ n, c.stage = .crossed n → n = c.issued
    ∧ ∀ ms, (c.play ms).stage = .crossed n ∧ (c.play ms).issued = n

theorem move_crossed {n : Nat} (h : Inv c) (hs : c.stage = .crossed n) (m : Move) :
    c.move m = c := by
  have hl := (h.crossed n hs).2
  cases m with
  | drop ticket =>
      dsimp only [move]
      rw [hl, if_neg List.not_mem_nil]
  | _ =>
      dsimp only [move]
      rw [hs]

theorem play_crossed {n : Nat} (h : Inv c) (hs : c.stage = .crossed n) (ms : List Move) :
    c.play ms = c := by
  induction ms with
  | nil => rfl
  | cons m ms ih =>
      show (c.move m).play ms = c
      rw [move_crossed h hs]
      exact ih

theorem look_stage (h : Inv c) : c.look.stage
    = if c.live = [] then .crossed c.issued else .waiting (some c.changes) := by
  unfold look
  rw [h.passed?]
  by_cases hl : c.live = []
  · rw [if_pos hl, if_pos hl]
  · rw [if_neg hl, if_neg hl]

theorem Inv.counts (h : Inv c) : Counts c where
  outstanding := ⟨h.outstanding, h.distinct⟩
  total := h.total
  exact := by
    intro ticket hm
    have hout := h.outstanding
    have hpos := List.length_pos_of_mem hm
    dsimp only [move]
    rw [if_pos hm]
    show c.barrier.outstanding - 1 + 1 = c.barrier.outstanding
    omega
  blocked := by
    intro hl n
    refine ⟨fun hn => hl (h.crossed n hn).2, fun hn => hl ?_⟩
    -- a step changes no ticket
    have hlive : (c.move .poll).live = c.live := by
      have hlook : c.look.live = c.live := by
        unfold look
        split <;> rfl
      dsimp only [move]
      split
      · exact hlook
      · split
        · rfl
        · exact hlook
      · rfl
    rw [← hlive]
    exact ((inv_move h .poll).crossed n hn).2
  resolves := by
    intro seen hs hl
    have hlook := look_stage h
    rw [if_pos hl] at hlook
    dsimp only [move]
    rw [hs]
    cases seen with
    | none => exact hlook
    | some seen =>
        dsimp only
        rw [if_neg fun heq => (h.waiting seen hs).2 heq hl]
        exact hlook
  value := by
    intro n hn
    have hissued := (h.crossed n hn).1
    refine ⟨hissued, fun ms => ?_⟩
    rw [play_crossed h hn]
    exact ⟨hn, hissued.symm⟩

/-- A barrier that is not open any more is not opened again, and gives out no ticket. -/
theorem move_closed (hs : c.stage ≠ .open) (m : Move) :
    (c.move m).issued = c.issued ∧ (c.move m).stage ≠ .open := by
  have hlook : c.look.issued = c.issued ∧ c.look.stage ≠ .open := by
    unfold look
    split <;> exact ⟨rfl, by simp⟩
  cases m with
  | enter =>
      dsimp only [move]
      split
      · exact absurd ‹_› hs
      · exact ⟨rfl, hs⟩
  | drop ticket =>
      dsimp only [move]
      split <;> exact ⟨rfl, hs⟩
  | wait =>
      dsimp only [move]
      split
      · exact ⟨rfl, by simp⟩
      · exact ⟨rfl, hs⟩
  | poll =>
      dsimp only [move]
      split
      · exact hlook
      · split
        · exact ⟨rfl, hs⟩
        · exact hlook
      · exact ⟨rfl, hs⟩
  | giveUp =>
      dsimp only [move]
      split
      · exact ⟨rfl, by simp⟩
      · exact ⟨rfl, by simp⟩
      · exact ⟨rfl, hs⟩

theorem issued_closed (hs : c.stage ≠ .open) (ms : List Move) : (c.play ms).issued = c.issued := by
  induction ms generalizing c with
  | nil => rfl
  | cons m ms ih =>
      obtain ⟨hissued, hstage⟩ := move_closed hs m
      exact (ih hstage).trans hissued

/-- While a barrier is open a ticket is given out to each who enters, and to nobody else. -/
theorem move_open (hs : c.stage = .open) (m : Move) :
    (c.move m).issued = c.issued + (if m == .enter then 1 else 0)
      ∧ ((c.move m).stage = .open ↔ m.keepsOpen = true) := by
  cases m with
  | drop ticket =>
      dsimp only [move]
      split <;> exact ⟨rfl, iff_of_true hs rfl⟩
  | enter =>
      dsimp only [move]
      rw [hs]
      exact ⟨rfl, iff_of_true rfl rfl⟩
  | wait =>
      dsimp only [move]
      rw [hs]
      exact ⟨rfl, iff_of_false (by simp) (by decide)⟩
  | poll =>
      dsimp only [move]
      rw [hs]
      exact ⟨rfl, iff_of_true hs rfl⟩
  | giveUp =>
      dsimp only [move]
      rw [hs]
      exact ⟨rfl, iff_of_false (by simp) (by decide)⟩

/-- The tickets are those of all who entered before anybody waited. -/
theorem issued_play (hs : c.stage = .open) (ms : List Move) :
    (c.play ms).issued = c.issued + (ms.takeWhile Move.keepsOpen).count .enter := by
  induction ms generalizing c with
  | nil => rfl
  | cons m ms ih =>
      obtain ⟨hissued, hstage⟩ := move_open hs m
      have hplay : c.play (m :: ms) = (c.move m).play ms := rfl
      rw [hplay]
      by_cases hm : m.keepsOpen = true
      · rw [ih (hstage.mpr hm), hissued, List.takeWhile_cons_of_pos hm, List.count_cons]
        omega
      · have hother : (m == .enter) = false := by
          refine beq_eq_false_iff_ne.mpr ?_
          rintro rfl
          exact hm rfl
        rw [issued_closed (fun h => hm (hstage.mp h)), hissued, List.takeWhile_cons_of_neg hm, hother]
        rfl

/-- **A barrier counts its tickets right**, in whatever order they are given out and come back,
and whenever somebody waits. Who crosses it learns how many were ever given out. -/
theorem crossing_counts (ms : List Move) :
    let c := ({} : Crossing).play ms
    Counts c ∧ c.issued = (ms.takeWhile Move.keepsOpen).count .enter := by
  intro c
  refine ⟨(inv_play inv_empty ms).counts, ?_⟩
  have hissued := issued_play (c := {}) rfl ms
  rw [Nat.zero_add] at hissued
  exact hissued

/-- The count goes down to zero twice before anybody waits, and that is not seen. -/
example : (({} : Crossing).play [.enter, .drop 0, .enter, .drop 1, .enter, .enter, .wait, .poll,
    .drop 3, .poll, .drop 2, .poll]).stage = .crossed 4 := by
  decide

end Crossing
end Intake
