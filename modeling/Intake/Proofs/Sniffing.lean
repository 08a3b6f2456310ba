import Intake.Proofs.Renderings

/-!
# How a delimiter is chosen

A candidate is judged by how often it stands outside quotes in each of some lines. Each quote
turns a line inside out, so over a piece of a line whose quotes come in pairs the count goes on
as before, and nothing inside of them is counted (`countFrom_bare`, `countFrom_quoted`). A
candidate that is missing in a line has no standing; the best of those that have one is taken
(`foldl_better`).
-/

namespace Intake.Delimited

variable {x : Char} {n : Nat}

/-! ## Counting outside quotes -/

/-- A character that is neither a quote nor what is counted changes nothing. -/
theorem countFrom_other {c : Char} (hq : c ≠ '"') (hx : c ≠ x) (quoted : Bool) (n : Nat)
    (cs : List Char) : countFrom x quoted n (c :: cs) = countFrom x quoted n cs := by
  rw [countFrom, if_neg hq, if_neg (by simp [hx])]

/-- A quote turns the rest inside out. -/
theorem countFrom_quote (hq : x ≠ '"') (quoted : Bool) (n : Nat) (cs : List Char) :
    countFrom x quoted n ('"' :: cs) = countFrom x (!quoted) n cs := by
  rw [countFrom, if_pos rfl, if_neg (by simp [Ne.symm hq])]

theorem countFrom_self (hq : x ≠ '"') (n : Nat) (cs : List Char) :
    countFrom x false n (x :: cs) = countFrom x false (n + 1) cs := by
  rw [countFrom, if_neg hq, if_pos (by simp)]

/-- Inside quotes nothing is counted. -/
theorem countFrom_hidden {c : Char} (hq : c ≠ '"') (n : Nat) (cs : List Char) :
    countFrom x true n (c :: cs) = countFrom x true n cs := by
  rw [countFrom, if_neg hq, if_neg (by simp)]

theorem countFrom_bare {cs : List Char} (hcs : ∀ c ∈ cs, c ≠ '"' ∧ c ≠ x) (rest : List Char) :
    countFrom x false n (cs ++ rest) = countFrom x false n rest := by
  induction cs with
  | nil => rfl
  | cons c cs ih =>
      obtain ⟨hq, hx⟩ := hcs c List.mem_cons_self
      rw [List.cons_append, countFrom_other hq hx]
      exact ih fun y hy => hcs y (List.mem_cons_of_mem _ hy)

/-- A text with its quotes doubled begins and ends inside quotes. -/
theorem countFrom_doubled (hx : x ≠ '"') (cs rest : List Char) :
    countFrom x true n (doubled cs ++ rest) = countFrom x true n rest := by
  induction cs with
  | nil => rfl
  | cons c cs ih =>
      by_cases hc : c = '"'
      · subst hc
        show countFrom x true n ('"' :: '"' :: (doubled cs ++ rest)) = _
        rw [countFrom_quote hx, countFrom_quote hx]
        exact ih
      · have hcons : doubled (c :: cs) = c :: doubled cs := by simp [doubled, hc]
        rw [hcons, List.cons_append, countFrom_hidden hc]
        exact ih

/-- **What stands in quotes is not counted.** -/
theorem countFrom_quoted (hx : x ≠ '"') (cs rest : List Char) :
    countFrom x false n ('"' :: doubled cs ++ ['"'] ++ rest) = countFrom x false n rest := by
  rw [List.append_assoc, List.cons_append, countFrom_quote hx, Bool.not_false,
    countFrom_doubled hx, List.singleton_append, countFrom_quote hx, Bool.not_true]

/-! ## The best candidate -/

variable {lines : List (List Char)}

/-- A character that every line has as often as the others. -/
theorem standing?_of_even (hsome : lines ≠ []) (heven : ∀ l ∈ lines, count x l = n) :
    standing? lines x
      = if n = 0 then none else some { delimiter := x, consistent := true, least := n } := by
  have hcounts : ∀ m ∈ lines.map (count x), m = n := by
    intro m hm
    obtain ⟨l, hl, rfl⟩ := List.mem_map.mp hm
    exact heven l hl
  unfold standing?
  cases hc : lines.map (count x) with
  | nil => exact absurd (List.map_eq_nil_iff.mp hc) hsome
  | cons m ms =>
      rw [hc] at hcounts
      obtain ⟨rfl, hms⟩ := List.forall_mem_cons.mp hcounts
      have hleast : ms.foldl min m = m := by
        clear hc hcounts
        induction ms with
        | nil => rfl
        | cons k ms ih =>
            obtain ⟨rfl, hrest⟩ := List.forall_mem_cons.mp hms
            rw [List.foldl_cons, Nat.min_self]
            exact ih hrest
      have hall : (m :: ms).all (· == m) = true :=
        List.all_eq_true.mpr fun k hk => beq_iff_eq.mpr (hcounts k hk)
      dsimp only
      rw [hleast, hall]

/-- **Where one candidate alone has a standing, it is taken**, if it is better than what was there
before. The others are passed over, and against itself it keeps its place. -/
theorem foldl_better {s best : Standing} {cs : List Char} {d : Char}
    (hs : standing? lines d = some s) (hothers : ∀ c ∈ cs, c ≠ d → standing? lines c = none)
    (hbest : best = s ∨ d ∈ cs ∧ s.beats best = true) : cs.foldl (better lines) best = s := by
  induction cs generalizing best with
  | nil => exact hbest.elim id fun h => absurd h.1 List.not_mem_nil
  | cons c cs ih =>
      have hrest : ∀ c ∈ cs, c ≠ d → standing? lines c = none :=
        fun y hy => hothers y (List.mem_cons_of_mem _ hy)
      rw [List.foldl_cons]
      by_cases hc : c = d
      · subst hc
        refine ih hrest (Or.inl ?_)
        unfold better
        rw [hs]
        dsimp only
        rcases hbest with rfl | ⟨_, hbeats⟩
        · exact ite_self _
        · exact if_pos hbeats
      · have hpass : better lines best c = best := by
          unfold better
          rw [hothers c List.mem_cons_self hc]
        rw [hpass]
        refine ih hrest (hbest.imp_right fun h => ⟨?_, h.2⟩)
        exact (List.mem_cons.mp h.1).resolve_left (Ne.symm hc)

end Intake.Delimited
