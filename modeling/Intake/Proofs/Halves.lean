import Intake.Proofs.Closure

/-!
# Closes in two halves

The first half of a close takes an id off the list, the second closes the entry that it named.
Others act between the two, so an entry can be open and on no list, while somebody is about to
close it. Whoever else closes it then finds nothing to do.

`Registry.Stirred` says what anybody at all can do to a registry, half by half, with the closes
that are under way. A session's entry is `Guarded` throughout: as long as it is open, it is the one
that its id names, or its registry is gone, or somebody is about to close it. So whoever has done
his own half knows that the entry is closed or is about to be (`Guarded.beginCloseEntry`), and that
its id does not name it any more.
-/

namespace Intake

namespace Registry

/-- What the first half of a close does, with the entry that is to be closed. -/
inductive Begun (r : Registry) : Option Handle → Registry → Prop
  | missed : r.Begun none r
  | unlisted {id : String} {k : Handle} : r.lookup? id = some k → r.Begun (some k) (r.unlist id)
  /-- The registry of the entry is gone, and with it the list. -/
  | orphaned {k : Handle} {e : Entry} : r.entry? k = some e → e.orphaned = true →
      r.Begun (some k) r

/-- **What others do to a registry**, with the entries that they are about to close. -/
inductive Stirred (r : Registry) (closing : List Handle) : Registry → List Handle → Prop
  | asked (c : Call) : r.Stirred closing (r.call c) closing
  | begun {k : Option Handle} {r' : Registry} : r.Begun k r' →
      r.Stirred closing r' (closing ++ k.toList)
  | finished {k : Handle} : k ∈ closing → r.Stirred closing (r.cancel k) (closing.erase k)
  | renewed : r.Stirred closing r.renew closing

/-- **An entry in its session's hands.** Some closes are pending. -/
structure Guarded (r : Registry) (id : String) (h : Handle) (pending : List Handle) : Prop where
  held : ∃ e, r.entry? h = some e ∧ e.session = id
    ∧ (e.closed = true ∨ e.orphaned = true ∨ r.lookup? id = some h ∨ h ∈ pending)
  orphaned : ∀ e, r.entry? h = some e → e.orphaned = true → (id, h) ∉ r.live
  /-- The id names no older entry, -/
  later : ∀ k, (id, k) ∈ r.live → h ≤ k
  /-- and one at most. -/
  once : ∀ k k', (id, k) ∈ r.live → (id, k') ∈ r.live → k = k'

variable {r r' : Registry} {id : String} {h : Handle} {pending : List Handle}

theorem beginClose_begun (r : Registry) (id : String) :
    r.Begun (r.beginClose id).1 (r.beginClose id).2 := by
  unfold beginClose
  cases hl : r.lookup? id with
  | some k => exact .unlisted hl
  | none => exact .missed

theorem beginCloseEntry_begun (r : Registry) (h : Handle) :
    r.Begun (r.beginCloseEntry h).2.1 (r.beginCloseEntry h).2.2 := by
  unfold beginCloseEntry
  split
  · exact .missed
  · rename_i he
    split
    · rename_i ho
      exact .orphaned he ho
    · split
      · exact .missed
      · rename_i hl
        split
        · exact .unlisted hl
        · exact .missed

/-! ## What is listed -/

theorem not_listed (hl : r.lookup? id = none) (k : Handle) : (id, k) ∉ r.live :=
  fun hm => lookup?_eq_none hl (List.mem_map.mpr ⟨(id, k), hm, rfl⟩)

theorem mem_unlist {id' : String} {k : Handle} :
    (id, k) ∈ (r.unlist id').live ↔ (id, k) ∈ r.live ∧ id ≠ id' := by
  unfold unlist
  simp

/-- No call lists an id with an entry that was there before. -/
theorem unlisted_call (hlt : h < r.entries.length) (hu : (id, h) ∉ r.live) (c : Call) :
    (id, h) ∉ (r.call c).live := by
  have hb := call_became r c
  generalize r.opens c = o at hb
  generalize r.closes c = cl at hb
  generalize r.call c = r' at hb ⊢
  cases hb with
  | opened id' _ =>
      intro hm
      rcases List.mem_append.mp hm with hold | hnew
      · exact hu hold
      · rw [(Prod.mk.inj (List.mem_singleton.mp hnew)).2] at hlt
        exact absurd hlt (Nat.lt_irrefl _)
  | removed id' k _ => exact fun hm => hu (mem_unlist.mp hm).1
  | _ => exact hu

theorem unlisted_stirred {closing closing' : List Handle} (hlt : h < r.entries.length)
    (hu : (id, h) ∉ r.live) (hs : r.Stirred closing r' closing') : (id, h) ∉ r'.live := by
  cases hs with
  | asked c => exact unlisted_call hlt hu c
  | begun hb =>
      cases hb with
      | missed => exact hu
      | unlisted _ => exact fun hm => hu (mem_unlist.mp hm).1
      | orphaned _ _ => exact hu
  | finished _ => exact hu
  | renewed => exact fun hm => absurd hm (by simp [renew])

/-! ## A closed entry stays closed -/

theorem Closed.isClosed (hc : r.Closed h) : r.isClosed h = true := by
  obtain ⟨e, he, hcl⟩ := hc
  unfold Registry.isClosed
  rw [he]
  exact hcl

theorem closed_of_isClosed {e : Entry} (he : r.entry? h = some e) (hc : r.isClosed h = true) :
    r.Closed h := by
  unfold Registry.isClosed at hc
  rw [he] at hc
  exact ⟨e, he, hc⟩

/-- The second half of a close closes the entry. -/
theorem closed_cancel {e : Entry} (he : r.entry? h = some e) : Closed (r.cancel h) h :=
  ⟨e.close, entry?_modify_self he, rfl⟩

theorem Closed.cancel (hc : r.Closed h) (k : Handle) : Closed (r.cancel k) h := by
  obtain ⟨e, he, hcl⟩ := hc
  rcases entry?_modify_close (k := k) he with hsame | hclosed
  · exact ⟨e, hsame, hcl⟩
  · exact ⟨e.close, hclosed, rfl⟩

theorem Closed.stirred {closing closing' : List Handle} (hc : r.Closed h)
    (hs : r.Stirred closing r' closing') : r'.Closed h := by
  cases hs with
  | asked c => exact hc.calls [c]
  | begun hb => cases hb <;> exact hc
  | finished _ => exact hc.cancel _
  | renewed => exact hc.renew

/-! ## The entry in its session's hands -/

namespace Guarded

theorem lt (hg : r.Guarded id h pending) : h < r.entries.length := by
  obtain ⟨e, he, _⟩ := hg.held
  exact entry?_lt he

/-- A session's entry, just after it was opened. -/
theorem of_open (ho : r.open? id = some (h, r')) : r'.Guarded id h [] := by
  obtain ⟨e, he, hor⟩ := held_open ho
  rw [open?_eq] at ho
  by_cases hc : r.contains id = true
  · rw [if_pos hc] at ho
    exact absurd ho (by simp)
  · have hnone := contains_eq_false (by simpa using hc)
    rw [if_neg hc] at ho
    cases ho
    -- the id named nothing before
    have hnew : ∀ k, (id, k) ∈ (r.opened id).live → k = r.entries.length := by
      intro k hm
      rcases List.mem_append.mp hm with hold | hlast
      · exact absurd hold (not_listed hnone k)
      · exact (Prod.mk.inj (List.mem_singleton.mp hlast)).2
    have hnewest := entry?_opened_new r id
    rw [he] at hnewest
    cases hnewest
    exact {
      held := ⟨_, he, rfl, hor.imp_right fun h => h.imp_right Or.inl⟩
      orphaned := fun e' he' ho' => by
        rw [he] at he'
        cases he'
        exact absurd ho' (by simp)
      later := fun k hm => Nat.le_of_eq (hnew k hm).symm
      once := fun k k' hm hm' => (hnew k hm).trans (hnew k' hm').symm }

/-- Closes that are pending besides change nothing. -/
theorem mono (hg : r.Guarded id h pending) {pending' : List Handle}
    (hp : h ∈ pending → h ∈ pending') : r.Guarded id h pending' := by
  obtain ⟨e, he, hid, hor⟩ := hg.held
  exact ⟨⟨e, he, hid, hor.imp_right fun h => h.imp_right fun h => h.imp_right hp⟩, hg.orphaned,
    hg.later, hg.once⟩

/-- The entry changes in nothing that concerns its being open. -/
theorem kept {k : Handle} {e e' : Entry} (hg : r.Guarded id h pending)
    (he : r.entry? k = some e) (hkeep : e.Keeps e') :
    Guarded (r.modify k fun _ => e') id h pending := by
  obtain ⟨f, hf, hid, hor⟩ := hg.held
  obtain ⟨f', hf', hk⟩ := entry?_kept he hkeep hf
  refine ⟨⟨f', hf', hk.session.trans hid, ?_⟩, ?_, hg.later, hg.once⟩
  · rw [hk.closed, hk.orphaned]
    exact hor
  · intro g hgk ho
    rw [hf'] at hgk
    cases hgk
    exact hg.orphaned f hf (hk.orphaned.symm.trans ho)

/-- **An id goes off the list**: the entry that it named is about to be closed. -/
theorem unlist {id' : String} {k : Handle} (hg : r.Guarded id h pending)
    (hl : r.lookup? id' = some k) : Guarded (r.unlist id') id h (pending ++ [k]) := by
  obtain ⟨e, he, hid, hor⟩ := hg.held
  refine ⟨⟨e, he, hid, ?_⟩, fun e' he' ho hm => hg.orphaned e' he' ho (mem_unlist.mp hm).1,
    fun j hm => hg.later j (mem_unlist.mp hm).1,
    fun j j' hm hm' => hg.once j j' (mem_unlist.mp hm).1 (mem_unlist.mp hm').1⟩
  rcases hor with hcl | horphan | hown | hpending
  · exact Or.inl hcl
  · exact Or.inr (Or.inl horphan)
  · by_cases hsame : id = id'
    · subst hsame
      rw [hown] at hl
      cases hl
      exact Or.inr (Or.inr (Or.inr (List.mem_append_right _ (List.mem_singleton.mpr rfl))))
    · -- another id goes
      have hstays := lookup?_remove (r := r) (k := k) hsame
      exact Or.inr (Or.inr (Or.inl (hstays.trans hown)))
  · exact Or.inr (Or.inr (Or.inr (List.mem_append_left _ hpending)))

/-- **An entry is closed** by one who was about to. -/
theorem cancel {k : Handle} {pending' : List Handle} (hg : r.Guarded id h pending)
    (hp : h ∈ pending → h = k ∨ h ∈ pending') : Guarded (r.cancel k) id h pending' := by
  obtain ⟨e, he, hid, hor⟩ := hg.held
  by_cases hk : k = h
  · subst hk
    refine ⟨⟨e.close, entry?_modify_self he, hid, Or.inl rfl⟩, ?_, hg.later, hg.once⟩
    intro e' he' ho
    have hself : entry? (r.cancel k) k = some e.close := entry?_modify_self he
    rw [hself] at he'
    cases he'
    exact hg.orphaned e he ho
  · have hother : entry? (r.cancel k) h = r.entry? h := entry?_modify_ne hk
    refine ⟨⟨e, hother.trans he, hid, ?_⟩, ?_, hg.later, hg.once⟩
    · exact hor.imp_right fun ho => ho.imp_right fun ho => ho.imp_right fun hm =>
        (hp hm).resolve_left (Ne.symm hk)
    · intro e' he' ho
      exact hg.orphaned e' (hother.symm.trans he') ho

theorem opened {id' : String} (hg : r.Guarded id h pending) (hc : r.contains id' = false) :
    Guarded (r.opened id') id h pending := by
  obtain ⟨e, he, hid, hor⟩ := hg.held
  have hnone := contains_eq_false hc
  -- whoever is listed new comes after the entry
  have hlisted : ∀ k, (id, k) ∈ (r.opened id').live →
      (id, k) ∈ r.live ∨ id = id' ∧ k = r.entries.length := by
    intro k hm
    rcases List.mem_append.mp hm with hold | hnew
    · exact Or.inl hold
    · exact Or.inr (Prod.mk.inj (List.mem_singleton.mp hnew))
  refine ⟨⟨e, entry?_opened_old he, hid, ?_⟩, ?_, ?_, ?_⟩
  · exact hor.imp_right fun ho => ho.imp_right fun ho => ho.imp_left lookup?_opened
  · intro e' he' ho hm
    rw [entry?_opened_old he] at he'
    cases he'
    rcases hlisted h hm with hold | ⟨_, hlast⟩
    · exact hg.orphaned e he ho hold
    · exact absurd hg.lt (by rw [hlast]; exact Nat.lt_irrefl _)
  · intro k hm
    rcases hlisted k hm with hold | ⟨_, hlast⟩
    · exact hg.later k hold
    · exact hlast ▸ Nat.le_of_lt hg.lt
  · intro k k' hm hm'
    rcases hlisted k hm with hold | ⟨hsame, hlast⟩
    · rcases hlisted k' hm' with hold' | ⟨hsame, _⟩
      · exact hg.once k k' hold hold'
      · exact absurd (hsame ▸ hold) (not_listed hnone k)
    · rcases hlisted k' hm' with hold' | ⟨_, hlast'⟩
      · exact absurd (hsame ▸ hold') (not_listed hnone k')
      · exact hlast.trans hlast'.symm

/-- A call of anybody. A close in one go is its two halves. -/
theorem call (hg : r.Guarded id h pending) (c : Call) : Guarded (r.call c) id h pending := by
  have hb := call_became r c
  generalize r.opens c = o at hb
  generalize r.closes c = cl at hb
  generalize r.call c = r' at hb ⊢
  cases hb with
  | same => exact hg
  | opened id' hc => exact hg.opened hc
  | removed id' k hl =>
      refine (hg.unlist hl).cancel ?_
      intro hm
      rcases List.mem_append.mp hm with hold | hnew
      · exact Or.inr hold
      · exact Or.inl (List.mem_singleton.mp hnew)
  | kept he hkeep => exact hg.kept he hkeep
  | orphanClosed _ _ => exact hg.cancel Or.inr

theorem began {k : Option Handle} (hg : r.Guarded id h pending) (hb : r.Begun k r') :
    r'.Guarded id h (pending ++ k.toList) := by
  cases hb with
  | missed => exact hg.mono (List.mem_append_left _)
  | unlisted hl => exact hg.unlist hl
  | orphaned _ _ => exact hg.mono (List.mem_append_left _)

theorem renew (hg : r.Guarded id h pending) : Guarded r.renew id h pending := by
  obtain ⟨e, he, hid, _⟩ := hg.held
  exact ⟨⟨_, entry?_renew he, hid, Or.inr (Or.inl rfl)⟩,
    fun _ _ _ hm => absurd hm (by simp [Registry.renew]),
    fun _ hm => absurd hm (by simp [Registry.renew]),
    fun _ _ hm => absurd hm (by simp [Registry.renew])⟩

/-- **Kept, whatever others do**, beside the closes of the session itself. -/
theorem stirred {closing closing' own : List Handle} (hg : r.Guarded id h (closing ++ own))
    (hs : r.Stirred closing r' closing') : r'.Guarded id h (closing' ++ own) := by
  cases hs with
  | asked c => exact hg.call c
  | @begun k _ hb =>
      refine (hg.began hb).mono fun hm => ?_
      simp only [List.mem_append] at hm ⊢
      tauto
  | @finished k hk =>
      refine hg.cancel fun hm => ?_
      by_cases hsame : h = k
      · exact Or.inl hsame
      · refine Or.inr ?_
        rcases List.mem_append.mp hm with hold | hown
        · exact List.mem_append_left _ ((List.mem_erase_of_ne hsame).mpr hold)
        · exact List.mem_append_right _ hown
  | renewed => exact hg.renew

/-- What is closed, or about to be, stays so. -/
theorem closes_stirred {closing closing' own : List Handle} (hg : r.Guarded id h (closing ++ own))
    (hs : r.Stirred closing r' closing') (hc : r.Closed h ∨ h ∈ closing ++ own) :
    r'.Closed h ∨ h ∈ closing' ++ own := by
  rcases hc with hc | hm
  · exact Or.inl (hc.stirred hs)
  cases hs with
  | asked c => exact Or.inr hm
  | begun _ =>
      simp only [List.mem_append] at hm ⊢
      tauto
  | @finished k _ =>
      by_cases hsame : h = k
      · subst hsame
        obtain ⟨e, he, _⟩ := hg.held
        exact Or.inl (closed_cancel he)
      · refine Or.inr ?_
        rcases List.mem_append.mp hm with hold | hown
        · exact List.mem_append_left _ ((List.mem_erase_of_ne hsame).mpr hold)
        · exact List.mem_append_right _ hown
  | renewed => exact Or.inr hm

/-- **The session's own close, after its first half**: the entry is closed, or the session or
somebody else is about to close it, and its id does not name it any more. -/
theorem beginCloseEntry (hg : r.Guarded id h pending) :
    (Closed (r.beginCloseEntry h).2.2 h ∨ (r.beginCloseEntry h).2.1 = some h ∨ h ∈ pending)
      ∧ (id, h) ∉ (r.beginCloseEntry h).2.2.live := by
  obtain ⟨e, he, hid, hor⟩ := hg.held
  unfold Registry.beginCloseEntry
  rw [he]
  dsimp only
  by_cases ho : e.orphaned = true
  · rw [if_pos ho]
    exact ⟨Or.inr (Or.inl rfl), hg.orphaned e he ho⟩
  rw [if_neg ho, hid]
  -- where the id names another entry, or none, somebody else was here before
  have hothers : r.lookup? id ≠ some h → r.Closed h ∨ h ∈ pending := by
    intro hne
    rcases hor with hcl | horphan | hown | hpending
    · exact Or.inl ⟨e, he, hcl⟩
    · exact absurd horphan ho
    · exact absurd hown hne
    · exact Or.inr hpending
  cases hl : r.lookup? id with
  | none =>
      dsimp only
      refine ⟨?_, not_listed hl h⟩
      rcases hothers (by rw [hl]; simp) with hc | hm
      · exact Or.inl hc
      · exact Or.inr (Or.inr hm)
  | some k =>
      dsimp only
      by_cases hk : k = h
      · subst hk
        rw [he, Option.map_some, if_pos rfl]
        exact ⟨Or.inr (Or.inl rfl), fun hm => (mem_unlist.mp hm).2 rfl⟩
      · have hrest := hothers (by rw [hl]; simpa using hk)
        split
        · refine ⟨?_, fun hm => (mem_unlist.mp hm).2 rfl⟩
          rcases hrest with hc | hm
          · exact Or.inl hc
          · exact Or.inr (Or.inr hm)
        · refine ⟨?_, fun hm => hk (hg.once k h (mem_of_lookup? hl) hm)⟩
          rcases hrest with hc | hm
          · exact Or.inl hc
          · exact Or.inr (Or.inr hm)

end Guarded
end Registry
end Intake
