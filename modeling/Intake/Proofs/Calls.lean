import Mathlib.Data.List.Nodup
import Mathlib.Data.List.Range
import Intake.Registry
import Intake.Sink

/-!
# Calls on the registry

The registry is three pieces of state: the table of entries, the list of the ids that are
open, and the epoch counter. Handles of any age refer into the table. `call_became` says once
what any call can do to the three: nothing, open an entry, remove one, or change an entry in
something that does not concern its being open.

What holds the three together is `Registry.Sound`: an id is listed once, it is listed with the
entry of its session that is not closed, and an entry's epoch is its place in the table.
-/

namespace Intake

/-- An element of a list with one more at its end. -/
theorem getElem?_concat_back {α : Type} {xs : List α} {x y : α} {k : Nat}
    (h : (xs ++ [x])[k]? = some y) : xs[k]? = some y ∨ k = xs.length ∧ y = x := by
  rcases Nat.lt_or_ge k xs.length with hlt | hge
  · rw [List.getElem?_append_left hlt] at h
    exact Or.inl h
  · have hlt := (List.getElem?_eq_some_iff.mp h).1
    rw [List.length_append, List.length_singleton] at hlt
    have hk : k = xs.length := by omega
    subst hk
    rw [List.getElem?_concat_length] at h
    exact Or.inr ⟨rfl, (Option.some.inj h).symm⟩

/-! ## Looks and closes with nothing in between -/

namespace Entry

/-- The looks of a delivery. -/
theorem deliver?_eq (e : Entry) (event : Event) (now deadline : Nat) :
    e.deliver? event now deadline =
      if e.closed then some (.closed, e)
      else if deadline ≤ now then some (.timedOut, e)
      else match e.reader with
        | .awaited => none
        | .gone => some (.closed, e)
        | .present => if e.slot.isNone then some (.delivered, { e with slot := some event }) else none :=
  rfl

/-- The looks of a reader. The second one for an event finds nothing when nobody came between. -/
theorem receive?_eq (e : Entry) (now deadline : Nat) :
    e.receive? now deadline =
      match e.slot with
      | some event => some (some event, { e with slot := none })
      | none => if e.closed || deadline ≤ now then some (none, e) else none := by
  unfold receive? last pick?
  cases e.slot with
  | some event => rfl
  | none => cases e.closed <;> simp

end Entry

/-- A look-up with what follows it. -/
theorem Attachment.step?_eq (a : Attachment) (r : Registry) (now : Nat) :
    a.step? r now =
      if now < a.next then none
      else
        match r.lookup? a.id with
        | some h =>
          match r.take? h with
          | some r => some (.attached { handle := h } r)
          | none => some (.failed (.alreadyAttached a.id))
        | none =>
          if a.giveUp ≤ now then some (.failed (.unknownSession a.id))
          else some (.again { a with next := now + pollInterval }) := by
  unfold step? look?
  by_cases hnext : now < a.next
  · rw [if_pos hnext, if_pos hnext]
  · rw [if_neg hnext, if_neg hnext]
    cases r.lookup? a.id with
    | some h =>
        dsimp only [claim]
        cases r.take? h <;> rfl
    | none => simp only [isOver, rest, decide_eq_true_eq]

namespace Registry

/-- A close by an id. -/
theorem close_eq (r : Registry) (id : String) :
    r.close id = match r.lookup? id with
      | some h => (true, r.remove id h)
      | none => (false, r) := by
  unfold close beginClose
  cases r.lookup? id <;> rfl

/-- A close through a handle. -/
theorem closeEntry_eq (r : Registry) (h : Handle) :
    r.closeEntry h = match r.entry? h with
      | none => (false, r)
      | some e =>
        if e.orphaned then (false, r.modify h Entry.close)
        else
          match r.lookup? e.session with
          | none => (false, r)
          | some current =>
            if (r.entry? current).map Entry.epoch = some e.epoch then
              (true, r.remove e.session current)
            else (false, r) := by
  unfold closeEntry beginCloseEntry
  cases r.entry? h with
  | none => rfl
  | some e =>
      dsimp only
      split
      · rfl
      · cases r.lookup? e.session with
        | none => rfl
        | some current =>
            dsimp only
            split <;> rfl

/-- What can be asked of the registry, by anybody, through any id and any handle. -/
inductive Call where
  | openEntry (id : String)
  | lookup (id : String)
  | close (id : String)
  | closeEntry (h : Handle)
  | take (h : Handle)
  | deliver (h : Handle) (event : Event) (now deadline : Nat)
  | receive (h : Handle) (now deadline : Nat)
  | leave (h : Handle)

/-- The registry after a call. -/
def call (r : Registry) : Call → Registry
  | .openEntry id =>
    match r.open? id with
    | some (_, r) => r
    | none => r
  | .lookup _ => r
  | .close id => (r.close id).2
  | .closeEntry h => (r.closeEntry h).2
  | .take h => (r.take? h).getD r
  | .deliver h event now deadline =>
    match r.deliver? h event now deadline with
    | some (_, r) => r
    | none => r
  | .receive h now deadline =>
    match r.receive? h now deadline with
    | some (_, r) => r
    | none => r
  | .leave h => r.leave h

/-- The registry after some calls. -/
def calls (r : Registry) (cs : List Call) : Registry :=
  cs.foldl call r

/-- The epoch of the entry that a call opens. -/
def opens (r : Registry) : Call → Option Nat
  | .openEntry id => (r.open? id).bind fun (h, r) => (r.entry? h).map Entry.epoch
  | _ => none

/-- The epoch of the entry that a call says it has closed: the one that the id names, or the
one that the handle was issued for. -/
def closes (r : Registry) : Call → Option Nat
  | .close id =>
    if (r.close id).1 then ((r.lookup? id).bind r.entry?).map Entry.epoch else none
  | .closeEntry h => if (r.closeEntry h).1 then (r.entry? h).map Entry.epoch else none
  | _ => none

/-- What is noted of each call, in order. -/
def along (note : Registry → Call → Option Nat) : Registry → List Call → List Nat
  | _, [] => []
  | r, c :: cs => (note r c).toList ++ along note (r.call c) cs

@[simp] theorem calls_nil (r : Registry) : r.calls [] = r := rfl

@[simp] theorem calls_cons (r : Registry) (c : Call) (cs : List Call) :
    r.calls (c :: cs) = (r.call c).calls cs := rfl

@[simp] theorem along_nil (note : Registry → Call → Option Nat) (r : Registry) :
    along note r [] = [] := rfl

@[simp] theorem along_cons (note : Registry → Call → Option Nat) (r : Registry) (c : Call)
    (cs : List Call) :
    along note r (c :: cs) = (note r c).toList ++ along note (r.call c) cs := rfl

/-! ## Entries after an operation -/

theorem entry?_modify_self {r : Registry} {h : Handle} {f : Entry → Entry} {e : Entry}
    (he : r.entry? h = some e) : entry? (r.modify h f) h = some (f e) := by
  unfold entry? at he
  unfold entry? modify
  rw [List.getElem?_modify_eq, he]
  rfl

theorem entry?_modify_ne {r : Registry} {h k : Handle} {f : Entry → Entry} (hk : h ≠ k) :
    entry? (r.modify h f) k = r.entry? k := by
  unfold entry? modify
  exact List.getElem?_modify_ne f r.entries hk

theorem modify_of_none {r : Registry} {h : Handle} {f : Entry → Entry}
    (he : r.entry? h = none) : r.modify h f = r := by
  unfold entry? at he
  unfold modify
  rw [List.modify_eq_self (List.getElem?_eq_none_iff.mp he)]

/-- Changing an entry is putting another one in its place. -/
theorem modify_eq_put {r : Registry} {h : Handle} {f : Entry → Entry} {e : Entry}
    (he : r.entry? h = some e) : r.modify h f = r.modify h fun _ => f e := by
  unfold entry? at he
  have hmod : r.entries.modify h f = r.entries.modify h fun _ => f e := by
    refine List.ext_getElem? fun k => ?_
    by_cases hk : h = k
    · subst hk
      rw [List.getElem?_modify_eq, List.getElem?_modify_eq, he]
      rfl
    · rw [List.getElem?_modify_ne f _ hk, List.getElem?_modify_ne _ _ hk]
  unfold modify
  rw [hmod]

theorem modify_same {r : Registry} {h : Handle} {e : Entry} (he : r.entry? h = some e) :
    (r.modify h fun _ => e) = r := by
  have hput : r.modify h id = r.modify h fun _ => e := modify_eq_put he
  rw [← hput]
  unfold modify
  rw [List.modify_id]

theorem entry?_modify_back {r : Registry} {h k : Handle} {f : Entry → Entry} {e' : Entry}
    (he : entry? (r.modify h f) k = some e') :
    ∃ e, r.entry? k = some e ∧ (e' = e ∨ k = h ∧ e' = f e) := by
  by_cases hk : h = k
  · subst hk
    cases hr : r.entry? h with
    | none =>
        rw [modify_of_none hr, hr] at he
        exact absurd he (by simp)
    | some e =>
        rw [entry?_modify_self hr] at he
        exact ⟨e, rfl, Or.inr ⟨rfl, (Option.some.inj he).symm⟩⟩
  · rw [entry?_modify_ne hk] at he
    exact ⟨e', he, Or.inl rfl⟩

@[simp] theorem entry?_remove (r : Registry) (id : String) (h k : Handle) :
    entry? (r.remove id h) k = entry? (r.modify h Entry.close) k := rfl

/-- The registry with a new entry for an id. -/
def opened (r : Registry) (id : String) : Registry where
  entries := r.entries ++ [{ session := id, epoch := r.nextEpoch }]
  live := r.live ++ [(id, r.entries.length)]
  nextEpoch := r.nextEpoch + 1

theorem open?_eq (r : Registry) (id : String) :
    r.open? id = if r.contains id then none else some (r.entries.length, r.opened id) := rfl

theorem entry?_opened_new (r : Registry) (id : String) :
    entry? (r.opened id) r.entries.length = some { session := id, epoch := r.nextEpoch } := by
  unfold entry? opened
  exact List.getElem?_concat_length

theorem entry?_lt {r : Registry} {h : Nat} {e : Entry} (he : r.entry? h = some e) :
    h < r.entries.length := (List.getElem?_eq_some_iff.mp he).1

theorem entry?_opened_old {r : Registry} {id : String} {h : Handle} {e : Entry}
    (he : r.entry? h = some e) : entry? (r.opened id) h = some e := by
  unfold entry? opened
  rw [List.getElem?_append_left (entry?_lt he)]
  exact he

theorem entry?_opened_back {r : Registry} {id : String} {h : Nat} {e : Entry}
    (he : entry? (r.opened id) h = some e) :
    r.entry? h = some e
      ∨ h = r.entries.length ∧ e = { session := id, epoch := r.nextEpoch } :=
  getElem?_concat_back he

/-! ## What a call can do -/

end Registry

/-- The two stages of an entry agree in all that concerns its being open. -/
structure Entry.Keeps (e e' : Entry) : Prop where
  session : e'.session = e.session
  epoch : e'.epoch = e.epoch
  closed : e'.closed = e.closed
  orphaned : e'.orphaned = e.orphaned

namespace Registry

/-- The five things that a call can do to a registry, each with the epochs that it notes as
opened and as closed. -/
inductive Became (r : Registry) : Option Nat → Option Nat → Registry → Prop where
  | same : r.Became none none r
  | opened (id : String) : r.contains id = false →
      r.Became (some r.nextEpoch) none (r.opened id)
  | removed (id : String) (h : Handle) : r.lookup? id = some h →
      r.Became none ((r.entry? h).map Entry.epoch) (r.remove id h)
  | kept {h : Handle} {e e' : Entry} : r.entry? h = some e → e.Keeps e' →
      r.Became none none (r.modify h fun _ => e')
  | orphanClosed {h : Handle} {e : Entry} : r.entry? h = some e → e.orphaned = true →
      r.Became none none (r.modify h Entry.close)

end Registry

theorem Entry.offer?_keeps {e e' : Entry} {event : Event} {o : DeliveryOutcome}
    (h : e.offer? event = some (o, e')) : e.Keeps e' := by
  unfold Entry.offer? at h
  split at h
  · exact absurd h (by simp)
  · cases h
    exact ⟨rfl, rfl, rfl, rfl⟩
  · split at h
    · cases h
      exact ⟨rfl, rfl, rfl, rfl⟩
    · exact absurd h (by simp)

theorem Entry.deliver?_keeps {e e' : Entry} {event : Event} {now deadline : Nat}
    {o : DeliveryOutcome} (h : e.deliver? event now deadline = some (o, e')) : e.Keeps e' := by
  unfold Entry.deliver? at h
  split at h
  · cases h
    exact ⟨rfl, rfl, rfl, rfl⟩
  · split at h
    · cases h
      exact ⟨rfl, rfl, rfl, rfl⟩
    · exact Entry.offer?_keeps h

theorem Entry.receive?_keeps {e e' : Entry} {now deadline : Nat} {a : Option Event}
    (h : e.receive? now deadline = some (a, e')) : e.Keeps e' := by
  rw [Entry.receive?_eq] at h
  split at h
  · cases h
    exact ⟨rfl, rfl, rfl, rfl⟩
  · split at h
    · cases h
      exact ⟨rfl, rfl, rfl, rfl⟩
    · exact absurd h (by simp)

theorem Entry.take?_keeps {e e' : Entry} (h : e.take? = some e') : e.Keeps e' := by
  unfold Entry.take? at h
  split at h
  · cases h
    exact ⟨rfl, rfl, rfl, rfl⟩
  · exact absurd h (by simp)

theorem Entry.leave_keeps (e : Entry) : e.Keeps e.leave := ⟨rfl, rfl, rfl, rfl⟩

namespace Registry

theorem deliver?_became {r r' : Registry} {h : Handle} {event : Event} {now deadline : Nat}
    {o : DeliveryOutcome} (hd : r.deliver? h event now deadline = some (o, r')) :
    r.Became none none r' := by
  unfold deliver? at hd
  split at hd
  · cases hd
    exact .same
  · rename_i e he
    obtain ⟨⟨o', e'⟩, hde, heq⟩ := Option.map_eq_some_iff.mp hd
    cases heq
    exact .kept he (Entry.deliver?_keeps hde)

theorem receive?_became {r r' : Registry} {h : Handle} {now deadline : Nat}
    {a : Option Event} (hd : r.receive? h now deadline = some (a, r')) :
    r.Became none none r' := by
  unfold receive? at hd
  split at hd
  · cases hd
    exact .same
  · rename_i e he
    obtain ⟨⟨a', e'⟩, hde, heq⟩ := Option.map_eq_some_iff.mp hd
    cases heq
    exact .kept he (Entry.receive?_keeps hde)

theorem take?_became {r r' : Registry} {h : Handle} (ht : r.take? h = some r') :
    r.Became none none r' := by
  unfold take? at ht
  split at ht
  · rename_i e' he'
    obtain ⟨e, he, hte⟩ := Option.bind_eq_some_iff.mp he'
    cases ht
    exact .kept he (Entry.take?_keeps hte)
  · exact absurd ht (by simp)

theorem leave_became (r : Registry) (h : Handle) : r.Became none none (r.leave h) := by
  unfold leave
  cases he : r.entry? h with
  | none =>
      rw [modify_of_none he]
      exact .same
  | some e =>
      rw [modify_eq_put he]
      exact .kept he (Entry.leave_keeps e)

theorem close_became (r : Registry) (id : String) :
    r.Became none (r.closes (.close id)) (r.close id).2 := by
  dsimp only [closes]
  cases hl : r.lookup? id with
  | none =>
      have hc : r.close id = (false, r) := by
        rw [close_eq, hl]
      rw [hc]
      exact .same
  | some h =>
      have hc : r.close id = (true, r.remove id h) := by
        rw [close_eq, hl]
      rw [hc]
      exact .removed id h hl

theorem closeEntry_became (r : Registry) (h : Handle) :
    r.Became none (r.closes (.closeEntry h)) (r.closeEntry h).2 := by
  dsimp only [closes]
  rw [closeEntry_eq]
  split
  · exact .same
  · rename_i e he
    split
    · rename_i ho
      exact .orphanClosed he ho
    · split
      · exact .same
      · rename_i k hl
        split
        · rename_i hk
          -- the entry that goes has the epoch of the handle
          rw [if_pos rfl, he, Option.map_some, ← hk]
          exact .removed e.session k hl
        · exact .same

/-- **Every call does one of the five things.** -/
theorem call_became (r : Registry) (c : Call) :
    r.Became (r.opens c) (r.closes c) (r.call c) := by
  cases c with
  | openEntry id =>
      dsimp only [call, opens, closes]
      rw [open?_eq]
      by_cases hc : r.contains id = true
      · rw [if_pos hc]
        exact .same
      · rw [if_neg hc]
        dsimp only [Option.bind_some]
        rw [entry?_opened_new]
        exact .opened id (by simpa using hc)
  | lookup id => exact .same
  | close id => exact close_became r id
  | closeEntry h => exact closeEntry_became r h
  | take h =>
      dsimp only [call, opens, closes]
      cases ht : r.take? h with
      | none => exact .same
      | some r' => exact take?_became ht
  | deliver h event now deadline =>
      dsimp only [call, opens, closes]
      cases hd : r.deliver? h event now deadline with
      | none => exact .same
      | some p => exact deliver?_became hd
  | receive h now deadline =>
      dsimp only [call, opens, closes]
      cases hd : r.receive? h now deadline with
      | none => exact .same
      | some p => exact receive?_became hd
  | leave h => exact leave_became r h

/-! ## The invariant -/

/-- **The registry's invariant.** -/
structure Sound (r : Registry) : Prop where
  /-- An id is listed once. -/
  ids : (r.live.map Prod.fst).Nodup
  /-- An id is listed with the entries of its session that are not closed. -/
  live : ∀ id h, (id, h) ∈ r.live ↔
    ∃ e, r.entry? h = some e ∧ e.session = id ∧ e.closed = false
  /-- An entry's epoch is its place. -/
  epoch : ∀ h e, r.entry? h = some e → e.epoch = h
  /-- The counter counts the entries. -/
  next : r.nextEpoch = r.entries.length
  /-- Nobody has taken the registry away from its entries. -/
  owned : ∀ h e, r.entry? h = some e → e.orphaned = false

theorem find?_fst {l : List (String × Handle)} (hn : (l.map Prod.fst).Nodup) {id : String}
    {h : Handle} (hm : (id, h) ∈ l) : l.find? (·.1 == id) = some (id, h) := by
  induction l with
  | nil => exact absurd hm (by simp)
  | cons x xs ih =>
      rw [List.map_cons, List.nodup_cons] at hn
      rcases List.mem_cons.mp hm with hx | hx
      · subst hx
        simp
      · have hne : x.1 ≠ id := fun he => hn.1 (he ▸ List.mem_map.mpr ⟨(id, h), hx, rfl⟩)
        rw [List.find?_cons_of_neg (by simpa using hne)]
        exact ih hn.2 hx

theorem mem_of_lookup? {r : Registry} {id : String} {h : Handle}
    (hl : r.lookup? id = some h) : (id, h) ∈ r.live := by
  obtain ⟨⟨id', h'⟩, hf, heq⟩ := Option.map_eq_some_iff.mp hl
  have hid : id' = id := by simpa using List.find?_some hf
  subst hid
  cases heq
  exact List.mem_of_find?_eq_some hf

/-- A look-up finds what is listed. -/
theorem Sound.lookup?_iff {r : Registry} (hs : r.Sound) {id : String} {h : Handle} :
    r.lookup? id = some h ↔ (id, h) ∈ r.live := by
  refine ⟨mem_of_lookup?, fun hm => ?_⟩
  unfold lookup?
  rw [find?_fst hs.ids hm]
  rfl

theorem lookup?_eq_none {r : Registry} {id : String} (hl : r.lookup? id = none) :
    id ∉ r.live.map Prod.fst := by
  intro hm
  obtain ⟨x, hx, he⟩ := List.mem_map.mp hm
  unfold lookup? at hl
  rw [Option.map_eq_none_iff, List.find?_eq_none] at hl
  exact hl x hx (by simpa using he)

theorem contains_eq_false {r : Registry} {id : String} (hc : r.contains id = false) :
    r.lookup? id = none := by
  unfold contains at hc
  simpa using hc

theorem sound_empty : Sound {} where
  ids := List.nodup_nil
  live := by
    intro id h
    simp [ entry?]
  epoch := by
    intro h e he
    simp [ entry?] at he
  next := rfl
  owned := by
    intro h e he
    simp [ entry?] at he

theorem opened_sound {r : Registry} (hs : r.Sound) {id : String} (hc : r.contains id = false) :
    (r.opened id).Sound where
  ids := by
    show ((r.live ++ [(id, r.entries.length)]).map Prod.fst).Nodup
    rw [List.map_append, List.nodup_append]
    refine ⟨hs.ids, by simp, ?_⟩
    -- an id that is refused to nobody is not listed yet
    intro x hx y hy hxy
    have hyid : y = id := by simpa using hy
    subst hyid
    exact lookup?_eq_none (contains_eq_false hc) (hxy ▸ hx)
  live := by
    intro id' k
    have hmem : (id', k) ∈ (r.opened id).live
        ↔ (id', k) ∈ r.live ∨ (id', k) = (id, r.entries.length) := by
      unfold opened
      rw [List.mem_append, List.mem_singleton]
    rw [hmem]
    constructor
    · rintro (hm | heq)
      · obtain ⟨e, he, h1, h2⟩ := (hs.live id' k).mp hm
        exact ⟨e, entry?_opened_old he, h1, h2⟩
      · cases heq
        exact ⟨_, entry?_opened_new r id, rfl, rfl⟩
    · rintro ⟨e, he, h1, h2⟩
      rcases entry?_opened_back he with hold | ⟨hk, hnew⟩
      · exact Or.inl ((hs.live id' k).mpr ⟨e, hold, h1, h2⟩)
      · subst hnew
        rw [← h1, hk]
        exact Or.inr rfl
  epoch := by
    intro k e he
    rcases entry?_opened_back he with hold | ⟨hk, hnew⟩
    · exact hs.epoch k e hold
    · rw [hnew, hk]
      exact hs.next
  next := by
    show r.nextEpoch + 1 = (r.entries ++ [_]).length
    rw [List.length_append, List.length_singleton, hs.next]
  owned := by
    intro k e he
    rcases entry?_opened_back he with hold | ⟨_, hnew⟩
    · exact hs.owned k e hold
    · rw [hnew]

theorem removed_sound {r : Registry} (hs : r.Sound) {id : String} {h : Handle}
    (hl : r.lookup? id = some h) : (r.remove id h).Sound where
  ids := hs.ids.sublist ((List.filter_sublist).map Prod.fst)
  live := by
    intro id' k
    obtain ⟨e, he, hid, _⟩ := (hs.live id h).mp (mem_of_lookup? hl)
    have hmem : (id', k) ∈ (r.remove id h).live ↔ (id', k) ∈ r.live ∧ id' ≠ id := by
      unfold remove unlist cancel modify
      simp
    rw [hmem, entry?_remove]
    constructor
    · rintro ⟨hm, hne⟩
      obtain ⟨e', he', h1, h2⟩ := (hs.live id' k).mp hm
      -- another id is listed with another entry, which is not closed
      have hk : h ≠ k := by
        intro hk
        subst hk
        rw [he] at he'
        cases he'
        exact hne (h1.symm.trans hid)
      exact ⟨e', by rw [entry?_modify_ne hk]; exact he', h1, h2⟩
    · rintro ⟨e', he', h1, h2⟩
      obtain ⟨e₀, he₀, hor⟩ := entry?_modify_back he'
      rcases hor with heq | ⟨_, heq⟩
      · subst heq
        have hm := (hs.live id' k).mpr ⟨e', he₀, h1, h2⟩
        refine ⟨hm, ?_⟩
        -- the id that goes is listed with nothing but the entry that goes
        intro hid'
        subst hid'
        have hk : k = h := Option.some.inj ((hs.lookup?_iff.mpr hm).symm.trans hl)
        subst hk
        rw [entry?_modify_self he] at he'
        cases he'
        exact absurd h2 (by simp [Entry.close])
      · subst heq
        exact absurd h2 (by simp [Entry.close])
  epoch := by
    intro k e he
    rw [entry?_remove] at he
    obtain ⟨e₀, he₀, heq | ⟨_, heq⟩⟩ := entry?_modify_back he
    · exact heq ▸ hs.epoch k e₀ he₀
    · exact heq ▸ hs.epoch k e₀ he₀
  next := by
    show r.nextEpoch = (r.entries.modify h Entry.close).length
    rw [List.length_modify]
    exact hs.next
  owned := by
    intro k e he
    rw [entry?_remove] at he
    obtain ⟨e₀, he₀, heq | ⟨_, heq⟩⟩ := entry?_modify_back he
    · exact heq ▸ hs.owned k e₀ he₀
    · exact heq ▸ hs.owned k e₀ he₀

/-- The entry at a place after one has been put there that agrees with the old one. -/
theorem entry?_kept {r : Registry} {h k : Handle} {e e' f : Entry} (he : r.entry? h = some e)
    (hkeep : e.Keeps e') (hf : r.entry? k = some f) :
    ∃ f', entry? (r.modify h fun _ => e') k = some f' ∧ f.Keeps f' := by
  by_cases hk : h = k
  · subst hk
    rw [he] at hf
    cases hf
    exact ⟨e', entry?_modify_self he, hkeep⟩
  · exact ⟨f, by rw [entry?_modify_ne hk]; exact hf, rfl, rfl, rfl, rfl⟩

theorem entry?_kept_back {r : Registry} {h k : Handle} {e e' f' : Entry}
    (he : r.entry? h = some e) (hkeep : e.Keeps e')
    (hf : entry? (r.modify h fun _ => e') k = some f') :
    ∃ f, r.entry? k = some f ∧ f.Keeps f' := by
  obtain ⟨f, hf₀, _⟩ := entry?_modify_back hf
  obtain ⟨f'', hf'', hk⟩ := entry?_kept he hkeep hf₀
  rw [hf] at hf''
  cases hf''
  exact ⟨f, hf₀, hk⟩

theorem kept_sound {r : Registry} (hs : r.Sound) {h : Handle} {e e' : Entry}
    (he : r.entry? h = some e) (hkeep : e.Keeps e') : (r.modify h fun _ => e').Sound where
  ids := hs.ids
  live := by
    intro id k
    show (id, k) ∈ r.live ↔ _
    rw [hs.live id k]
    constructor
    · rintro ⟨f, hf, h1, h2⟩
      obtain ⟨f', hf', hk⟩ := entry?_kept he hkeep hf
      exact ⟨f', hf', hk.session.trans h1, hk.closed.trans h2⟩
    · rintro ⟨f', hf', h1, h2⟩
      obtain ⟨f, hf, hk⟩ := entry?_kept_back he hkeep hf'
      exact ⟨f, hf, hk.session.symm.trans h1, hk.closed.symm.trans h2⟩
  epoch := by
    intro k f' hf'
    obtain ⟨f, hf, hk⟩ := entry?_kept_back he hkeep hf'
    exact hk.epoch.trans (hs.epoch k f hf)
  next := by
    show r.nextEpoch = (r.entries.modify h fun _ => e').length
    rw [List.length_modify]
    exact hs.next
  owned := by
    intro k f' hf'
    obtain ⟨f, hf, hk⟩ := entry?_kept_back he hkeep hf'
    exact hk.orphaned.trans (hs.owned k f hf)

/-- **The invariant is preserved by every call.** -/
theorem sound_step {r r' : Registry} {o c : Option Nat} (hs : r.Sound) (hb : r.Became o c r') :
    r'.Sound := by
  cases hb with
  | same => exact hs
  | opened id hc => exact opened_sound hs hc
  | removed id h hl => exact removed_sound hs hl
  | kept he hkeep => exact kept_sound hs he hkeep
  | orphanClosed he ho => exact absurd (hs.owned _ _ he) (by simp [ho])

theorem sound_calls {r : Registry} (hs : r.Sound) (cs : List Call) : (r.calls cs).Sound := by
  induction cs generalizing r with
  | nil => exact hs
  | cons c cs ih => exact ih (sound_step hs (call_became r c))

/-! ## Calls that leave an entry to its own parties -/

/-- Holds of the calls that neither send into an entry, nor read from it, nor take or leave
its reader's place. -/
def Call.spares (h : Handle) : Call → Bool
  | .take k => k != h
  | .deliver k _ _ _ => k != h
  | .receive k _ _ => k != h
  | .leave k => k != h
  | _ => true

theorem entry?_modify_close {r : Registry} {h k : Handle} {e : Entry}
    (he : r.entry? h = some e) :
    entry? (r.modify k Entry.close) h = some e
      ∨ entry? (r.modify k Entry.close) h = some e.close := by
  by_cases hk : k = h
  · subst hk
    exact Or.inr (entry?_modify_self he)
  · left
    rw [entry?_modify_ne hk]
    exact he

theorem entry?_closeEntry {r : Registry} {h k : Handle} {e : Entry} (he : r.entry? h = some e) :
    entry? (r.closeEntry k).2 h = some e ∨ entry? (r.closeEntry k).2 h = some e.close := by
  rw [closeEntry_eq]
  split
  · exact Or.inl he
  · split
    · exact entry?_modify_close he
    · split
      · exact Or.inl he
      · split
        · exact entry?_modify_close he
        · exact Or.inl he

/-- **All that such calls can do to the entry is to close it.** -/
theorem entry?_call {r : Registry} {c : Call} {h : Handle} {e : Entry}
    (hc : c.spares h = true) (he : r.entry? h = some e) :
    entry? (r.call c) h = some e ∨ entry? (r.call c) h = some e.close := by
  cases c with
  | openEntry id =>
      left
      dsimp only [call]
      rw [open?_eq]
      by_cases hid : r.contains id = true
      · rw [if_pos hid]
        exact he
      · rw [if_neg hid]
        exact entry?_opened_old he
  | lookup id => exact Or.inl he
  | close id =>
      dsimp only [call]
      rw [close_eq]
      split
      · exact entry?_modify_close he
      · exact Or.inl he
  | closeEntry k => exact entry?_closeEntry he
  | take k =>
      left
      have hk : k ≠ h := by simpa [Call.spares] using hc
      dsimp only [call]
      unfold take?
      split
      · exact (entry?_modify_ne hk).trans he
      · exact he
  | deliver k event now deadline =>
      left
      have hk : k ≠ h := by simpa [Call.spares] using hc
      dsimp only [call]
      unfold deliver?
      cases r.entry? k with
      | none => exact he
      | some f =>
          dsimp only
          cases f.deliver? event now deadline with
          | none => exact he
          | some p => exact (entry?_modify_ne hk).trans he
  | receive k now deadline =>
      left
      have hk : k ≠ h := by simpa [Call.spares] using hc
      dsimp only [call]
      unfold receive?
      cases r.entry? k with
      | none => exact he
      | some f =>
          dsimp only
          cases f.receive? now deadline with
          | none => exact he
          | some p => exact (entry?_modify_ne hk).trans he
  | leave k =>
      left
      have hk : k ≠ h := by simpa [Call.spares] using hc
      exact (entry?_modify_ne hk).trans he

end Registry
end Intake
