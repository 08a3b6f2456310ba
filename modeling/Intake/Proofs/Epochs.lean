import Intake.Proofs.Calls

/-!
# Epochs

A registry is opened, looked up and closed any number of times, through ids and through
handles of any age. This module follows such a run of calls from the empty registry: which
epochs the opened entries get, which call closed which of them, and what a handle sees.

A stale handle is harmless because an entry's epoch is its place in the table. Closing
through a handle compares epochs, so it can only ever remove the entry at its own place, and
a removed entry is closed for good.
-/

namespace Intake

namespace Registry

/-! ## Opening -/

/-- Epochs are handed out in order, and none is passed over. -/
theorem along_opens (r : Registry) (cs : List Call) :
    ∃ n, (r.calls cs).nextEpoch = r.nextEpoch + n
      ∧ along opens r cs = List.range' r.nextEpoch n := by
  induction cs generalizing r with
  | nil => exact ⟨0, rfl, rfl⟩
  | cons c cs ih =>
      obtain ⟨n, h1, h2⟩ := ih (r.call c)
      -- only a call that opens an entry moves the counter, by one
      have hstep : (r.opens c = none ∧ (r.call c).nextEpoch = r.nextEpoch)
          ∨ (r.opens c = some r.nextEpoch ∧ (r.call c).nextEpoch = r.nextEpoch + 1) := by
        have hb := call_became r c
        generalize r.opens c = o at hb ⊢
        generalize r.closes c = cl at hb
        generalize r.call c = r' at hb ⊢
        cases hb with
        | same => exact Or.inl ⟨rfl, rfl⟩
        | opened id _ => exact Or.inr ⟨rfl, rfl⟩
        | removed id h _ => exact Or.inl ⟨rfl, rfl⟩
        | kept _ _ => exact Or.inl ⟨rfl, rfl⟩
        | orphanClosed _ _ => exact Or.inl ⟨rfl, rfl⟩
      rw [calls_cons, h1, along_cons, h2]
      rcases hstep with ⟨ho, hn⟩ | ⟨ho, hn⟩
      · rw [ho, hn]
        exact ⟨n, rfl, rfl⟩
      · rw [ho, hn]
        exact ⟨n + 1, by omega, by rw [List.range'_succ]; rfl⟩

/-! ## Closing -/

/-- An entry stays where it is, and stays closed once it is. -/
theorem entry?_became {r r' : Registry} {o c : Option Nat} (hb : r.Became o c r') {k : Handle}
    {e : Entry} (he : r.entry? k = some e) :
    ∃ e', r'.entry? k = some e' ∧ (e.closed = true → e'.closed = true) := by
  have hclose : ∀ h, ∃ e', entry? (r.modify h Entry.close) k = some e'
      ∧ (e.closed = true → e'.closed = true) := by
    intro h
    rcases entry?_modify_close he with hm | hm
    · exact ⟨e, hm, id⟩
    · exact ⟨e.close, hm, fun _ => rfl⟩
  cases hb with
  | same => exact ⟨e, he, id⟩
  | opened id _ => exact ⟨e, entry?_opened_old he, fun h => h⟩
  | removed id h _ => exact hclose h
  | kept hf hkeep =>
      obtain ⟨e', he', hk⟩ := entry?_kept hf hkeep he
      exact ⟨e', he', fun h => hk.closed.trans h⟩
  | orphanClosed _ _ => exact hclose _

theorem entry?_calls {r : Registry} {k : Handle} {e : Entry} (cs : List Call)
    (he : r.entry? k = some e) :
    ∃ e', entry? (r.calls cs) k = some e' ∧ (e.closed = true → e'.closed = true) := by
  induction cs generalizing r e with
  | nil => exact ⟨e, he, id⟩
  | cons c cs ih =>
      obtain ⟨e₁, he₁, h₁⟩ := entry?_became (call_became r c) he
      obtain ⟨e₂, he₂, h₂⟩ := ih he₁
      exact ⟨e₂, he₂, fun h => h₂ (h₁ h)⟩

/-- **What is noted as closed was open, and is closed.** -/
theorem became_closes {r r' : Registry} {o : Option Nat} {n : Nat} (hs : r.Sound)
    (hb : r.Became o (some n) r') :
    ∃ e, r.entry? n = some e ∧ e.closed = false ∧ r'.entry? n = some e.close := by
  generalize hc : some n = c at hb
  cases hb with
  | removed id h hl =>
      obtain ⟨e, he, _, hopen⟩ := (hs.live id h).mp (mem_of_lookup? hl)
      rw [he, Option.map_some, hs.epoch h e he] at hc
      cases hc
      exact ⟨e, he, hopen, entry?_modify_self he⟩
  | same => exact absurd hc (by simp)
  | opened id _ => exact absurd hc (by simp)
  | kept _ _ => exact absurd hc (by simp)
  | orphanClosed _ _ => exact absurd hc (by simp)

/-- **An entry becomes closed with the call that notes its epoch, and with no other.** -/
theorem became_closed_iff {r r' : Registry} {o c : Option Nat} (hs : r.Sound)
    (hb : r.Became o c r') (n : Nat) :
    (∃ e, r'.entry? n = some e ∧ e.closed = true)
      ↔ (∃ e, r.entry? n = some e ∧ e.closed = true) ∨ c = some n := by
  constructor
  · rintro ⟨e', he', hcl⟩
    cases hb with
    | same => exact Or.inl ⟨e', he', hcl⟩
    | opened id _ =>
        rcases entry?_opened_back he' with hold | ⟨_, hnew⟩
        · exact Or.inl ⟨e', hold, hcl⟩
        · subst hnew
          exact absurd hcl (by simp)
    | removed id h hl =>
        rw [entry?_remove] at he'
        obtain ⟨e, he, heq | ⟨hk, _⟩⟩ := entry?_modify_back he'
        · exact Or.inl ⟨e, he, heq ▸ hcl⟩
        · subst hk
          right
          rw [he, Option.map_some, hs.epoch n e he]
    | kept hf hkeep =>
        obtain ⟨e, he, hk⟩ := entry?_kept_back hf hkeep he'
        exact Or.inl ⟨e, he, hk.closed.symm.trans hcl⟩
    | orphanClosed he ho => exact absurd (hs.owned _ _ he) (by simp [ho])
  · rintro (⟨e, he, hcl⟩ | hc)
    · obtain ⟨e', he', hmono⟩ := entry?_became hb he
      exact ⟨e', he', hmono hcl⟩
    · subst hc
      obtain ⟨e, _, _, he'⟩ := became_closes hs hb
      exact ⟨e.close, he', rfl⟩

/-- No epoch is noted as closed twice, nor one whose entry is closed already. -/
theorem along_closes_nodup {r : Registry} (hs : r.Sound) (cs : List Call) :
    (along closes r cs).Nodup
      ∧ ∀ n ∈ along closes r cs, ∀ e, r.entry? n = some e → e.closed = false := by
  induction cs generalizing r with
  | nil => exact ⟨List.nodup_nil, fun n hn => absurd hn (by simp)⟩
  | cons c cs ih =>
      have hb := call_became r c
      obtain ⟨hnd, hopen⟩ := ih (sound_step hs hb)
      have hback : ∀ n ∈ along closes (r.call c) cs, ∀ e, r.entry? n = some e →
          e.closed = false := by
        intro n hn e he
        obtain ⟨e', he', hmono⟩ := entry?_became hb he
        have hfalse := hopen n hn e' he'
        cases hcl : e.closed with
        | false => rfl
        | true => rw [hmono hcl] at hfalse; exact hfalse
      rw [along_cons]
      cases hc : r.closes c with
      | none => exact ⟨hnd, hback⟩
      | some n =>
          rw [hc] at hb
          obtain ⟨e, he, hwas, hnow⟩ := became_closes hs hb
          refine ⟨List.nodup_cons.mpr ⟨fun hn => ?_, hnd⟩, ?_⟩
          · -- closed by this call, so noted by no later one
            exact absurd (hopen n hn e.close hnow) (by simp [Entry.close])
          · intro m hm f hf
            rcases List.mem_cons.mp hm with hmn | hm
            · subst hmn
              rw [he] at hf
              cases hf
              exact hwas
            · exact hback m hm f hf

theorem calls_closed_iff {r : Registry} (hs : r.Sound) (cs : List Call) (n : Nat) :
    (∃ e, entry? (r.calls cs) n = some e ∧ e.closed = true)
      ↔ (∃ e, r.entry? n = some e ∧ e.closed = true) ∨ n ∈ along closes r cs := by
  induction cs generalizing r with
  | nil => simp
  | cons c cs ih =>
      have hb := call_became r c
      rw [calls_cons, ih (sound_step hs hb), became_closed_iff hs hb n, along_cons,
        List.mem_append, Option.mem_toList, or_assoc]

/-! ## Closing through a handle -/

theorem closeEntry_of_open {r : Registry} (hs : r.Sound) {h : Handle} {e : Entry}
    (he : r.entry? h = some e) (ho : e.closed = false) :
    r.closeEntry h = (true, r.remove e.session h) := by
  have hl : r.lookup? e.session = some h :=
    hs.lookup?_iff.mpr ((hs.live e.session h).mpr ⟨e, he, rfl, ho⟩)
  rw [closeEntry_eq]
  rw [he]
  dsimp only
  rw [if_neg (by simp [hs.owned h e he]), hl]
  dsimp only
  rw [he, Option.map_some, if_pos rfl]

/-- **A stale handle closes nothing.** If its id is open again, then with another epoch. -/
theorem closeEntry_of_closed {r : Registry} (hs : r.Sound) {h : Handle} {e : Entry}
    (he : r.entry? h = some e) (hc : e.closed = true) : r.closeEntry h = (false, r) := by
  rw [closeEntry_eq]
  rw [he]
  dsimp only
  rw [if_neg (by simp [hs.owned h e he])]
  cases hl : r.lookup? e.session with
  | none => rfl
  | some k =>
      obtain ⟨f, hf, _, hopen⟩ := (hs.live e.session k).mp (mem_of_lookup? hl)
      -- the id was opened again since: an entry of another place, so of another epoch
      have hne : (r.entry? k).map Entry.epoch ≠ some e.epoch := by
        intro heq
        rw [hf, Option.map_some, hs.epoch k f hf, hs.epoch h e he] at heq
        cases heq
        rw [he] at hf
        cases hf
        rw [hopen] at hc
        exact absurd hc (by simp)
      dsimp only
      rw [if_neg hne]

theorem isClosed_eq {r : Registry} {h : Handle} {e : Entry} (he : r.entry? h = some e) :
    r.isClosed h = e.closed := by
  unfold isClosed
  rw [he]

/-- Whatever it answers, closing through a handle leaves the handle's entry closed. -/
theorem isClosed_closeEntry {r : Registry} (hs : r.Sound) (h : Handle) :
    (r.closeEntry h).2.isClosed h = true := by
  cases he : r.entry? h with
  | none =>
      rw [closeEntry_eq]
      unfold isClosed
      rw [he]
      dsimp only
      rw [he]
  | some e =>
      cases hc : e.closed with
      | false =>
          rw [closeEntry_of_open hs he hc]
          exact isClosed_eq (entry?_modify_self he)
      | true =>
          rw [closeEntry_of_closed hs he hc]
          exact (isClosed_eq he).trans hc

/-- Nothing but the handle's own entry is touched, nor how it is listed. -/
theorem closeEntry_elsewhere {r : Registry} (hs : r.Sound) {h k : Handle} (hk : h ≠ k) :
    entry? (r.closeEntry h).2 k = r.entry? k
      ∧ ∀ id, (id, k) ∈ (r.closeEntry h).2.live ↔ (id, k) ∈ r.live := by
  cases he : r.entry? h with
  | none =>
      have hr : r.closeEntry h = (false, r) := by
        rw [closeEntry_eq]
        rw [he]
      rw [hr]
      exact ⟨rfl, fun id => Iff.rfl⟩
  | some e =>
      cases hc : e.closed with
      | true =>
          rw [closeEntry_of_closed hs he hc]
          exact ⟨rfl, fun id => Iff.rfl⟩
      | false =>
          have hr := closeEntry_of_open hs he hc
          have hentry : entry? (r.closeEntry h).2 k = r.entry? k := by
            rw [hr]
            exact entry?_modify_ne hk
          have hs' : (r.closeEntry h).2.Sound := sound_step hs (closeEntry_became r h)
          refine ⟨hentry, fun id => ?_⟩
          rw [hs'.live id k, hs.live id k, hentry]

/-! ## A run of calls -/

/-- What holds of a registry after some calls on an empty one. -/
structure Chronicle (cs : List Call) (r : Registry) : Prop where
  /-- An id has at most one entry. -/
  ids : (r.live.map Prod.fst).Nodup
  /-- The entries were opened with the epochs 0, 1, 2, and so on, and each has its own. -/
  opened : along opens {} cs = List.range r.entries.length
  epochs : ∀ h k e f, r.entry? h = some e → r.entry? k = some f → e.epoch = f.epoch → h = k
  /-- Opening fails for the ids that are open. It takes no epoch then and changes nothing. -/
  refused : ∀ id, (r.open? id = none ↔ ∃ h, (id, h) ∈ r.live)
    ∧ (r.open? id = none → r.call (.openEntry id) = r ∧ r.opens (.openEntry id) = none)
  /-- A look-up finds the entry of an id. -/
  found : ∀ id h, r.lookup? id = some h ↔ (id, h) ∈ r.live
  /-- An entry is in the map, under its session's id, exactly if its handles do not see it
  closed. -/
  listed : ∀ id h, (id, h) ∈ r.live
    ↔ ∃ e, r.entry? h = some e ∧ e.session = id ∧ r.isClosed h = false
  /-- It is closed exactly if some call said that it closed it. -/
  closed : ∀ h e, r.entry? h = some e → (r.isClosed h = true ↔ e.epoch ∈ along closes {} cs)
  /-- It never becomes open again. -/
  final : ∀ ds h e, r.entry? h = some e → r.isClosed h = true →
    (r.calls ds).isClosed h = true
  /-- At most one call says so for each epoch. -/
  once : (along closes {} cs).Nodup
  /-- Closing through a handle says whether the entry was open, and leaves it closed. -/
  effective : ∀ h e, r.entry? h = some e →
    ((r.closeEntry h).1 = true ↔ r.isClosed h = false) ∧ (r.closeEntry h).2.isClosed h = true
  /-- It touches no entry of another epoch, nor what is listed of it. -/
  aimed : ∀ h k e f, r.entry? h = some e → r.entry? k = some f → f.epoch ≠ e.epoch →
    entry? (r.closeEntry h).2 k = some f
      ∧ ∀ id, (id, k) ∈ (r.closeEntry h).2.live ↔ (id, k) ∈ r.live

/-- **The life of a registry.** Whatever is asked of it in whatever order, the map, the
counter and the marks of the entries agree. -/
theorem registry_chronicle (cs : List Call) : Chronicle cs (calls {} cs) := by
  have hs : (calls {} cs).Sound := sound_calls sound_empty cs
  refine ⟨hs.ids, ?_, ?_, fun id => ⟨?_, ?_⟩, fun id h => hs.lookup?_iff, ?_, ?_, ?_,
    (along_closes_nodup sound_empty cs).1, ?_, ?_⟩
  · obtain ⟨n, hn, ho⟩ := along_opens {} cs
    have hlen : (calls {} cs).entries.length = n := by
      rw [← hs.next, hn]
      exact Nat.zero_add n
    rw [ho, hlen]
    exact List.range_eq_range'.symm
  · intro h k e f he hf heq
    rw [← hs.epoch h e he, heq, hs.epoch k f hf]
  · rw [open?_eq]
    constructor
    · intro hnone
      by_cases hc : (calls {} cs).contains id = true
      · obtain ⟨h, hl⟩ := Option.isSome_iff_exists.mp hc
        exact ⟨h, mem_of_lookup? hl⟩
      · rw [if_neg hc] at hnone
        exact absurd hnone (by simp)
    · rintro ⟨h, hm⟩
      rw [if_pos]
      unfold contains
      rw [hs.lookup?_iff.mpr hm]
      rfl
  · intro hnone
    dsimp only [call, opens]
    rw [hnone]
    exact ⟨rfl, rfl⟩
  · intro id h
    rw [hs.live id h]
    constructor
    · rintro ⟨e, he, hid, ho⟩
      exact ⟨e, he, hid, (isClosed_eq he).trans ho⟩
    · rintro ⟨e, he, hid, ho⟩
      exact ⟨e, he, hid, (isClosed_eq he).symm.trans ho⟩
  · intro h e he
    have hiff := calls_closed_iff sound_empty cs h
    rw [isClosed_eq he, hs.epoch h e he]
    constructor
    · intro hc
      rcases hiff.mp ⟨e, he, hc⟩ with ⟨e', he', _⟩ | hm
      · exact absurd he' (by simp [ entry?])
      · exact hm
    · intro hm
      obtain ⟨e', he', hc⟩ := hiff.mpr (Or.inr hm)
      rw [he] at he'
      cases he'
      exact hc
  · intro ds h e he hc
    obtain ⟨e', he', hmono⟩ := entry?_calls ds he
    rw [isClosed_eq he']
    exact hmono ((isClosed_eq he).symm.trans hc)
  · intro h e he
    refine ⟨?_, isClosed_closeEntry hs h⟩
    rw [isClosed_eq he]
    cases hc : e.closed with
    | false =>
        rw [closeEntry_of_open hs he hc]
        exact ⟨fun _ => rfl, fun _ => rfl⟩
    | true =>
        rw [closeEntry_of_closed hs he hc]
        exact ⟨fun h => absurd h (by simp), fun h => absurd h (by simp)⟩
  · intro h k e f he hf hne
    have hk : h ≠ k := by
      intro hk
      subst hk
      rw [he] at hf
      cases hf
      exact hne rfl
    obtain ⟨h1, h2⟩ := closeEntry_elsewhere hs hk
    exact ⟨h1.trans hf, h2⟩

end Registry
end Intake
