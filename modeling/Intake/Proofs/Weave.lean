import Mathlib.Data.List.Forall2
import Mathlib.Data.List.Infix

/-!
# Woven lists

Several parties append to one list, each its own strand in its own order. The list is then
woven of the strands. Nothing else is in it, and how the parties took turns is left open.
-/

namespace Intake

/-- A list woven of some strands, one element at a time. -/
inductive Woven {α : Type} : List (List α) → List α → Prop
  | empty : Woven [] []
  /-- A strand that nobody has begun. -/
  | join {strands : List (List α)} {l : List α} : Woven strands l → Woven (strands ++ [[]]) l
  /-- The party of a strand appends an element. -/
  | grow {strands : List (List α)} {l strand : List α} {i : Nat} (x : α) : Woven strands l →
      strands[i]? = some strand → Woven (strands.set i (strand ++ [x])) (l ++ [x])

/-- Putting an element where it is changes nothing. -/
theorem set_self {α : Type} {l : List α} {i : Nat} {x : α} (hi : l[i]? = some x) :
    l.set i x = l := by
  obtain ⟨hlt, rfl⟩ := List.getElem?_eq_some_iff.mp hi
  exact List.set_getElem_self hlt

namespace Woven

variable {α : Type} {strands : List (List α)} {l strand : List α} {i : Nat}

/-- The party of a strand appends any number of elements. -/
theorem grows (h : Woven strands l) (hi : strands[i]? = some strand) (xs : List α) :
    Woven (strands.set i (strand ++ xs)) (l ++ xs) := by
  induction xs generalizing strands l strand with
  | nil =>
      rw [List.append_nil, List.append_nil, set_self hi]
      exact h
  | cons x xs ih =>
      have hlt : i < strands.length := (List.getElem?_eq_some_iff.mp hi).1
      have hstep := ih (h.grow x hi) (List.getElem?_set_self hlt)
      rw [List.set_set, List.append_assoc, List.append_assoc] at hstep
      exact hstep

theorem complete_after (done : List (List α)) {rest whole : List (List α)}
    (h : Woven (done ++ rest) l) (hw : List.Forall₂ (· <+: ·) rest whole) :
    ∃ more, Woven (done ++ whole) (l ++ more) := by
  induction hw generalizing done l with
  | nil => exact ⟨[], by rw [List.append_nil l]; exact h⟩
  | @cons strand full rest whole hp _ ih =>
      obtain ⟨xs, hxs⟩ := hp
      have hat : (done ++ strand :: rest)[done.length]? = some strand := by
        rw [List.getElem?_append_right (Nat.le_refl _), Nat.sub_self]
        rfl
      -- this strand is told to its end, then those behind it
      have hgrown := h.grows hat xs
      rw [List.set_append_right _ _ (Nat.le_refl _), Nat.sub_self, List.set_cons_zero, hxs,
        ← List.singleton_append, ← List.append_assoc] at hgrown
      obtain ⟨more, hmore⟩ := ih _ hgrown
      refine ⟨xs ++ more, ?_⟩
      rw [List.append_assoc, List.singleton_append, List.append_assoc] at hmore
      exact hmore

/-- **A woven list can always be completed.** If each strand is a beginning of a whole one,
the list is a beginning of a list woven of the whole ones. -/
theorem complete {whole : List (List α)} (h : Woven strands l)
    (hw : List.Forall₂ (· <+: ·) strands whole) : ∃ more, Woven whole (l ++ more) :=
  complete_after [] h hw

/-- Strands of others are told after all that was told. -/
theorem extend (h : Woven strands l) (extra : List (List α)) :
    Woven (strands ++ extra) (l ++ extra.flatten) := by
  induction extra generalizing strands l with
  | nil =>
      rw [List.append_nil, List.flatten_nil, List.append_nil]
      exact h
  | cons xs extra ih =>
      have hat : (strands ++ [[]])[strands.length]? = some [] := List.getElem?_concat_length
      have hgrown := h.join.grows hat xs
      rw [List.set_append_right _ _ (Nat.le_refl _), Nat.sub_self, List.set_cons_zero,
        List.nil_append] at hgrown
      have hrest := ih hgrown
      rw [List.append_assoc, List.singleton_append, List.append_assoc] at hrest
      exact hrest

/-- Nothing is in the list but what its strands have, -/
theorem mem {x : α} (h : Woven strands l) (hx : x ∈ l) : ∃ strand ∈ strands, x ∈ strand := by
  induction h with
  | empty => exact absurd hx (by simp)
  | join _ ih =>
      obtain ⟨s, hs, hxs⟩ := ih hx
      exact ⟨s, List.mem_append_left _ hs, hxs⟩
  | @grow strands l strand i y _ hi ih =>
      have hlt : i < strands.length := (List.getElem?_eq_some_iff.mp hi).1
      have hnew : strand ++ [y] ∈ strands.set i (strand ++ [y]) := List.mem_set hlt _
      rcases List.mem_append.mp hx with hold | hy
      · obtain ⟨s, hs, hxs⟩ := ih hold
        obtain ⟨j, hj⟩ := List.mem_iff_getElem?.mp hs
        by_cases hij : i = j
        · subst hij
          rw [hi] at hj
          cases hj
          exact ⟨_, hnew, List.mem_append_left _ hxs⟩
        · refine ⟨s, List.mem_iff_getElem?.mpr ⟨j, ?_⟩, hxs⟩
          rw [List.getElem?_set_ne hij]
          exact hj
      · exact ⟨_, hnew, List.mem_append_right _ hy⟩

/-- and all of that is: the list is what its strands are, in some order. -/
theorem perm (h : Woven strands l) : l.Perm strands.flatten := by
  induction h with
  | empty => exact .refl _
  | join _ ih => simpa using ih
  | @grow strands l strand i x _ hi ih =>
      have hlt : i < strands.length := (List.getElem?_eq_some_iff.mp hi).1
      -- both lists of strands, split at the one that grows
      have hsplit : ∀ s, (strands.set i s).flatten
          = (strands.take i).flatten ++ (s ++ (strands.drop (i + 1)).flatten) := by
        intro s
        rw [List.set_eq_take_append_cons_drop, if_pos hlt, List.flatten_append,
          List.flatten_cons]
      have hold := hsplit strand
      rw [set_self hi] at hold
      rw [hold] at ih
      rw [hsplit]
      refine (ih.append_right [x]).trans ?_
      rw [List.append_assoc, List.append_assoc, List.append_assoc]
      exact (List.perm_append_comm.append_left _).append_left _

theorem length_eq (h : Woven strands l) : l.length = strands.flatten.length :=
  h.perm.length_eq

end Woven
end Intake
