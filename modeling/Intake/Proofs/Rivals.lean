import Mathlib.Logic.Function.Basic
import Intake.Proofs.Outlet

/-!
# Who gets to read an entry

The reader's place of an entry is asked for by sinks, which look their sessions up and may have
to wait for them, and by parties that hold a handle of the entry and ask for its receiver
themselves. `Contest.move` is one step of one of these parties, or something that others ask of
the registry. What a sink's look-up finds it need not ask for in the same step, so that others
can come in between.

One party obtains the receiver of an entry at most, and the entry is attached from then on. All
others fail, and a run with one that has failed is the run without it: `contest_fair`.
-/

namespace Intake

/-- Holds of the calls that are not a reader's. -/
def Registry.Call.isPublic : Registry.Call → Bool
  | .take _ => false
  | .receive _ _ _ => false
  | .leave _ => false
  | _ => true

namespace Registry

/-! ## Which entries are attached -/

/-- Whether a reader has taken its place at the entry of a handle. -/
def isAttached (r : Registry) (h : Handle) : Bool :=
  (r.entry? h).any Entry.isAttached

variable {r r' : Registry} {h k : Handle}

theorem isAttached_eq {e : Entry} (he : r.entry? h = some e) : r.isAttached h = e.isAttached := by
  unfold isAttached
  rw [he]
  rfl

theorem isAttached_of_none (he : r.entry? h = none) : r.isAttached h = false := by
  unfold isAttached
  rw [he]
  rfl

theorem isAttached_modify {f : Entry → Entry}
    (hf : ∀ e, r.entry? k = some e → (f e).isAttached = e.isAttached) :
    isAttached (r.modify k f) h = r.isAttached h := by
  by_cases hk : k = h
  · subst hk
    cases he : r.entry? k with
    | none => rw [modify_of_none he]
    | some e => rw [isAttached_eq (entry?_modify_self he), isAttached_eq he, hf e he]
  · unfold isAttached
    rw [entry?_modify_ne hk]

theorem isAttached_opened (r : Registry) (id : String) (h : Handle) :
    isAttached (r.opened id) h = r.isAttached h := by
  cases he : r.entry? h with
  | some e => rw [isAttached_eq (entry?_opened_old he), isAttached_eq he]
  | none =>
      rw [isAttached_of_none he]
      cases hn : entry? (r.opened id) h with
      | none => exact isAttached_of_none hn
      | some e =>
          -- the new entry has no reader yet
          rcases entry?_opened_back hn with hold | ⟨_, hnew⟩
          · rw [he] at hold
            exact absurd hold (by simp)
          · rw [isAttached_eq hn, hnew]
            rfl

theorem isAttached_remove (r : Registry) (id : String) (k h : Handle) :
    isAttached (r.remove id k) h = r.isAttached h := by
  have hclose : isAttached (r.modify k Entry.close) h = r.isAttached h :=
    isAttached_modify fun e _ => rfl
  exact hclose

theorem isAttached_closeEntry (r : Registry) (k h : Handle) :
    isAttached (r.closeEntry k).2 h = r.isAttached h := by
  rw [closeEntry_eq]
  split
  · rfl
  · split
    · exact isAttached_modify fun e _ => rfl
    · split
      · rfl
      · split
        · exact isAttached_remove r _ _ h
        · rfl

theorem isAttached_renew (r : Registry) (h : Handle) :
    isAttached (Registry.renew r) h = r.isAttached h := by
  unfold isAttached entry? renew
  rw [List.getElem?_map, Option.any_map]
  rfl

end Registry

/-- A look at a delivery never takes or leaves the reader's place. -/
theorem Entry.isAttached_deliver {e e' : Entry} {event : Event} {now deadline : Nat}
    {o : DeliveryOutcome} (h : e.deliver? event now deadline = some (o, e')) :
    e'.isAttached = e.isAttached := by
  by_cases ho : o = .delivered
  · subst ho
    obtain ⟨_, _, _, _, he'⟩ := Entry.deliver?_delivered h
    rw [he']
    rfl
  · rw [Entry.deliver?_refused h ho]

namespace Registry

variable {r r' : Registry} {h k : Handle}

theorem isAttached_receive {now deadline : Nat} {a : Option Event}
    (hr : r.receive? k now deadline = some (a, r')) : r'.isAttached h = r.isAttached h := by
  unfold receive? at hr
  split at hr
  · cases hr
    rfl
  · rename_i e he
    obtain ⟨⟨a', e'⟩, hre, heq⟩ := Option.map_eq_some_iff.mp hr
    cases heq
    refine isAttached_modify fun f hf => ?_
    rw [he] at hf
    cases hf
    rw [(Entry.receive?_some hre).2]
    rfl

/-- The reader of an entry that leaves does not make it look as if it had not come. -/
theorem isAttached_leave (hk : r.isAttached k = true) :
    isAttached (r.leave k) h = r.isAttached h := by
  refine isAttached_modify fun e he => ?_
  rw [← isAttached_eq he, hk]
  rfl

/-- **Only the readers' calls make a difference to which entries are attached.** -/
theorem isAttached_call {c : Call} (hc : c.isPublic = true) :
    isAttached (r.call c) h = r.isAttached h := by
  cases c with
  | openEntry id =>
      dsimp only [call]
      rw [open?_eq]
      split
      · rename_i r' ho
        split at ho
        · exact absurd ho (by simp)
        · cases ho
          exact isAttached_opened r id h
      · rfl
  | lookup id => rfl
  | close id =>
      dsimp only [call]
      rw [close_eq]
      split
      · exact isAttached_remove r id _ h
      · rfl
  | closeEntry k => exact isAttached_closeEntry r k h
  | deliver k event now deadline =>
      dsimp only [call]
      cases hd : r.deliver? k event now deadline with
      | none => rfl
      | some x =>
          obtain ⟨o, r'⟩ := x
          dsimp only
          unfold deliver? at hd
          split at hd
          · cases hd
            rfl
          · rename_i e he
            obtain ⟨⟨o', e'⟩, hde, heq⟩ := Option.map_eq_some_iff.mp hd
            cases heq
            refine isAttached_modify fun f hf => ?_
            rw [he] at hf
            cases hf
            exact Entry.isAttached_deliver hde
  | take k => exact absurd hc (by simp [Call.isPublic])
  | receive k now deadline => exact absurd hc (by simp [Call.isPublic])
  | leave k => exact absurd hc (by simp [Call.isPublic])

/-- **The place of an entry is given away if the entry was not attached**, and it is then. -/
theorem isAttached_take (ht : r.take? k = some r') :
    r.isAttached k = false ∧ ∀ h, r'.isAttached h = true ↔ h = k ∨ r.isAttached h = true := by
  unfold take? at ht
  split at ht
  · rename_i e' hbind
    obtain ⟨e, he, hte⟩ := Option.bind_eq_some_iff.mp hbind
    obtain ⟨hr, he'⟩ := Entry.take?_some hte
    cases ht
    refine ⟨?_, fun h => ?_⟩
    · rw [isAttached_eq he]
      unfold Entry.isAttached
      rw [hr]
      rfl
    · by_cases hk : k = h
      · subst hk
        rw [isAttached_eq (entry?_modify_self he), he']
        exact iff_of_true rfl (Or.inl rfl)
      · have hsame : isAttached (r.modify k fun _ => e') h = r.isAttached h := by
          unfold isAttached
          rw [entry?_modify_ne hk]
        rw [hsame]
        exact ⟨Or.inr, fun hor => hor.resolve_left fun hh => hk hh.symm⟩
  · exact absurd ht (by simp)

/-- **Nobody gets the place of an entry that is attached.** -/
theorem take?_attached (hk : r.isAttached k = true) : r.take? k = none := by
  cases ht : r.take? k with
  | none => rfl
  | some r' =>
      rw [(isAttached_take ht).1] at hk
      exact absurd hk (by simp)

/-- Of an entry that is not attached anybody gets it. -/
theorem take?_free {e : Entry} (he : r.entry? k = some e) (hk : r.isAttached k = false) :
    ∃ r', r.take? k = some r' := by
  rw [isAttached_eq he] at hk
  unfold take?
  rw [he, Option.bind_some]
  unfold Entry.take?
  cases hr : e.reader with
  | awaited => exact ⟨_, rfl⟩
  | present => exact absurd hk (by simp [Entry.isAttached, hr])
  | gone => exact absurd hk (by simp [Entry.isAttached, hr])

end Registry

/-! ## Those who want to read -/

/-- How far a party is that wants to read an entry. -/
inductive Rival where
  /-- A sink that looks its session up now and then. -/
  | polling (a : Attachment)
  /-- A sink that has found its session and will ask for the place. -/
  | found (id : String) (h : Handle)
  | failed (error : SinkError)
  /-- Attaching was given up. -/
  | cancelled
  /-- A party that asked for the receiver of an entry itself, and did not get it. -/
  | refused (h : Handle)
  /-- A sink that is attached, and what its calls have returned. -/
  | sink (s : Sink) (answers : List (Option Event))
  /-- A party that holds the receiver itself, and what it has read. -/
  | receiver (h : Handle) (answers : List (Option Event))
  /-- A sink or a receiver that was dropped. -/
  | gone (h : Handle) (answers : List (Option Event))

namespace Rival

/-- The entry whose receiver the party has obtained. -/
def obtained? : Rival → Option Handle
  | sink s _ => some s.handle
  | receiver h _ => some h
  | gone h _ => some h
  | _ => none

/-- The two ways to ask for a receiver. -/
inductive Way where
  | attach (id : String) (grace : Nat)
  | take (h : Handle)

/-- A party comes. -/
def come (now : Nat) (r : Registry) : Way → Rival × Registry
  | .attach id grace =>
    match Attachment.start id now grace with
    | .ok a => (polling a, r)
    | .error e => (failed e, r)
  | .take h =>
    match r.take? h with
    | some r => (receiver h [], r)
    | none => (refused h, r)

/-- What a party can do that has come. -/
inductive Act where
  /-- It looks its session up and asks for the place at once. -/
  | look
  /-- It looks its session up, -/
  | find
  /-- and asks for the place later. -/
  | claim
  | cancel
  | receive (deadline : Nat)
  | drop

/-- The party and the registry after that. What cannot be done changes nothing. -/
def act (now : Nat) (r : Registry) : Rival → Act → Rival × Registry
  | polling a, .look =>
    match a.step? r now with
    | some (.attached s r) => (sink s [], r)
    | some (.failed e) => (failed e, r)
    | some (.again a) => (polling a, r)
    | none => (polling a, r)
  | polling a, .find =>
    if now < a.next then (polling a, r)
    else
      match r.lookup? a.id with
      | some h => (found a.id h, r)
      | none => (polling a, r)
  | polling _, .cancel => (cancelled, r)
  | found id h, .claim =>
    match r.take? h with
    | some r => (sink { handle := h } [], r)
    | none => (failed (.alreadyAttached id), r)
  | sink s answers, .receive deadline =>
    match s.receive? r now deadline with
    | some (a, s, r) => (sink s (answers ++ [a]), r)
    | none => (sink s answers, r)
  | sink s answers, .drop => (gone s.handle answers, s.drop r)
  | receiver h answers, .receive deadline =>
    match r.receive? h now deadline with
    | some (a, r) => (receiver h (answers ++ [a]), r)
    | none => (receiver h answers, r)
  | receiver h answers, .drop => (gone h answers, r.leave h)
  | x, _ => (x, r)

/-- A look-up that finds its session is the two steps one after the other. -/
theorem act_look {now : Nat} {r : Registry} {a : Attachment} {h : Handle} (hdue : a.next ≤ now)
    (hl : r.lookup? a.id = some h) :
    act now r (polling a) .find = (found a.id h, r)
      ∧ act now r (polling a) .look = act now r (found a.id h) .claim := by
  have hnot : ¬ now < a.next := by omega
  refine ⟨?_, ?_⟩
  · dsimp only [act]
    rw [if_neg hnot, hl]
  · dsimp only [act]
    rw [Attachment.step?_eq]
    rw [if_neg hnot, hl]
    dsimp only
    cases r.take? h <;> rfl

/-! ### What a party's turn comes to -/

/-- The three things that a party's turn can be to the registry, by what it has obtained before
and after. -/
inductive Turn (r : Registry) : Option Handle → Option Handle → Registry → Prop where
  /-- Nothing is obtained, and nothing happens to the registry. -/
  | idle : Turn r none none r
  | obtains {h : Handle} {r' : Registry} : r.take? h = some r' → Turn r none (some h) r'
  /-- Nobody else is concerned. -/
  | uses {h : Handle} {r' : Registry} :
      (r.isAttached h = true → ∀ k, r'.isAttached k = r.isAttached k) →
      Turn r (some h) (some h) r'

variable {r r' : Registry} {now : Nat} {o o' : Option Handle}

theorem Turn.refl (r : Registry) (o : Option Handle) : Turn r o o r := by
  cases o with
  | none => exact .idle
  | some h => exact .uses fun _ _ => rfl

/-- What was obtained stays so. -/
theorem Turn.kept {h : Handle} (ht : Turn r o o' r') (ho : o = some h) : o' = some h := by
  cases ht with
  | idle => exact ho
  | obtains _ => exact absurd ho (by simp)
  | uses _ => exact ho

/-- A receiver that was not obtained before was there to be taken. -/
theorem Turn.gain {h : Handle} (ht : Turn r o o' r') (ho' : o' = some h) :
    o = some h ∨ o = none ∧ r.isAttached h = false := by
  cases ht with
  | idle => exact absurd ho' (by simp)
  | obtains htake =>
      cases ho'
      exact Or.inr ⟨rfl, (Registry.isAttached_take htake).1⟩
  | uses _ => exact Or.inl ho'

/-- The entry whose receiver was obtained is attached, and no other one that was not. -/
theorem Turn.flags (ht : Turn r o o' r') (hatt : ∀ h, o = some h → r.isAttached h = true)
    (k : Handle) : r'.isAttached k = true ↔ o' = some k ∨ r.isAttached k = true := by
  cases ht with
  | idle => exact ⟨Or.inr, fun hor => hor.resolve_left (by simp)⟩
  | obtains htake =>
      rw [(Registry.isAttached_take htake).2 k, Option.some.injEq]
      exact or_congr_left eq_comm
  | @uses h _ hkeep =>
      rw [hkeep (hatt h rfl) k]
      refine ⟨Or.inr, fun hor => hor.elim (fun hk => ?_) id⟩
      exact hatt k hk

/-- A turn that obtains nothing leaves the registry alone. -/
theorem Turn.vain (ht : Turn r o o' r') (ho : o' = none) : r' = r := by
  cases ht with
  | idle => rfl
  | obtains _ => exact absurd ho (by simp)
  | uses _ => exact absurd ho (by simp)

theorem come_turn (way : Way) :
    Turn r none (come now r way).1.obtained? (come now r way).2 := by
  cases way with
  | attach id grace =>
      dsimp only [come]
      cases Attachment.start id now grace with
      | ok a => exact .idle
      | error e => exact .idle
  | take h =>
      dsimp only [come]
      cases ht : r.take? h with
      | none => exact .idle
      | some r' => exact .obtains ht

theorem look_turn (a : Attachment) :
    Turn r none (act now r (polling a) .look).1.obtained? (act now r (polling a) .look).2 := by
  dsimp only [act]
  rw [Attachment.step?_eq]
  split
  · rename_i s r' hstep
    split at hstep
    · exact absurd hstep (by simp)
    · split at hstep
      · split at hstep
        · rename_i h _ r₁ ht
          cases hstep
          exact .obtains ht
        · exact absurd hstep (by simp)
      · split at hstep <;> exact absurd hstep (by simp)
  · exact .idle
  · exact .idle
  · exact .idle

theorem act_turn (x : Rival) (a : Act) :
    Turn r x.obtained? (act now r x a).1.obtained? (act now r x a).2 := by
  cases x with
  | polling p =>
      cases a with
      | look => exact look_turn p
      | find =>
          dsimp only [act]
          split
          · exact .idle
          · split <;> exact .idle
      | _ => exact .idle
  | found id h =>
      cases a with
      | claim =>
          dsimp only [act]
          cases ht : r.take? h with
          | none => exact .idle
          | some r' => exact .obtains ht
      | _ => exact .idle
  | sink s answers =>
      cases a with
      | receive deadline =>
          dsimp only [act]
          cases hr : s.receive? r now deadline with
          | none => exact .refl r _
          | some y =>
              obtain ⟨e, s', r'⟩ := y
              obtain ⟨hh, ⟨_, _, _, hr'⟩ | ⟨_, hlook, _⟩⟩ := Sink.receive?_some hr
              · dsimp only [obtained?]
                rw [hh, hr']
                exact .refl r _
              · dsimp only [obtained?]
                rw [hh]
                exact .uses fun _ k => Registry.isAttached_receive hlook
      | drop =>
          refine .uses fun hatt k => ?_
          -- closing its entry does not take the reader away, and it was there
          have hclosed := Registry.isAttached_closeEntry r s.handle
          exact (Registry.isAttached_leave ((hclosed s.handle).trans hatt)).trans (hclosed k)
      | _ => exact .refl r _
  | receiver h answers =>
      cases a with
      | receive deadline =>
          dsimp only [act]
          cases hr : r.receive? h now deadline with
          | none => exact .refl r _
          | some y => exact .uses fun _ k => Registry.isAttached_receive hr
      | drop => exact .uses fun hatt k => Registry.isAttached_leave hatt
      | _ => exact .refl r _
  | gone h answers => cases a <;> exact .refl r _
  | _ => cases a <;> exact .idle

end Rival

/-! ## All of them together -/

/-- A registry, and all who want to read. -/
structure Contest where
  now : Nat := 0
  registry : Registry := {}
  /-- The parties that have come, by names that are given once. -/
  rivals : Nat → Option Rival := fun _ => none

namespace Contest

/-- The entry whose receiver a party has obtained. -/
def obtained? (t : Contest) (i : Nat) : Option Handle :=
  (t.rivals i).bind Rival.obtained?

/-- What becomes of a party and of the registry. -/
def put (t : Contest) (i : Nat) (y : Option Rival) (registry : Registry) : Contest :=
  { t with registry, rivals := Function.update t.rivals i y }

/-- Things as they are but for one party, of which nothing is known. -/
def without (t : Contest) (i : Nat) : Contest :=
  t.put i none t.registry

/-- What can happen next. -/
inductive Move where
  | come (i : Nat) (way : Rival.Way)
  | act (i : Nat) (a : Rival.Act)
  | wait (ms : Nat)
  /-- Anything is asked of the registry that is not for a reader to ask. -/
  | ask (c : Registry.Call)
  /-- The registry goes away and another one takes its place. -/
  | renew

/-- The party whose move it is. -/
def Move.party? : Move → Option Nat
  | come i _ => some i
  | act i _ => some i
  | _ => none

/-- The state of things after a move. A move that cannot be made changes nothing. -/
def move (t : Contest) : Move → Contest
  | .come i way =>
    match t.rivals i with
    | none =>
      let (x, registry) := Rival.come t.now t.registry way
      t.put i (some x) registry
    | some _ => t
  | .act i a =>
    match t.rivals i with
    | some x =>
      let (x, registry) := x.act t.now t.registry a
      t.put i (some x) registry
    | none => t
  | .wait ms => { t with now := t.now + ms }
  | .ask c => if c.isPublic then { t with registry := t.registry.call c } else t
  | .renew => { t with registry := t.registry.renew }

/-- The state of things after some moves. -/
def play (t : Contest) (ms : List Move) : Contest :=
  ms.foldl move t

variable {t : Contest} {i j : Nat} {h : Handle} {x : Rival}

theorem obtained?_eq (hx : t.rivals i = some x) : t.obtained? i = x.obtained? := by
  unfold obtained?
  rw [hx]
  rfl

theorem obtained?_put_self (t : Contest) (i : Nat) (y : Option Rival) (registry : Registry) :
    (t.put i y registry).obtained? i = y.bind Rival.obtained? := by
  unfold obtained? put
  dsimp only
  rw [Function.update_self]

theorem obtained?_put_ne (hj : j ≠ i) (y : Option Rival) (registry : Registry) :
    (t.put i y registry).obtained? j = t.obtained? j := by
  unfold obtained? put
  dsimp only
  rw [Function.update_of_ne hj]

theorem put_self (t : Contest) (i : Nat) : t.put i (t.rivals i) t.registry = t := by
  unfold put
  rw [Function.update_eq_self]

/-- **What a move comes to.** It is nobody's who wants to read, or the turn of one of them. -/
theorem moved (t : Contest) (m : Move) :
    (m.party? = none ∧ (t.move m).rivals = t.rivals
        ∧ ∀ h, (t.move m).registry.isAttached h = t.registry.isAttached h)
      ∨ ∃ i y registry, m.party? = some i ∧ t.move m = t.put i y registry
        ∧ Rival.Turn t.registry (t.obtained? i) (y.bind Rival.obtained?) registry := by
  cases m with
  | come i way =>
      refine Or.inr ⟨i, ?_⟩
      cases hx : t.rivals i with
      | none =>
          have ho : t.obtained? i = none := by
            unfold obtained?
            rw [hx]
            rfl
          dsimp only [move]
          rw [hx, ho]
          exact ⟨_, _, rfl, rfl, Rival.come_turn way⟩
      | some x =>
          dsimp only [move]
          rw [hx]
          exact ⟨_, _, rfl, (put_self t i).symm, .refl _ _⟩
  | act i a =>
      refine Or.inr ⟨i, ?_⟩
      cases hx : t.rivals i with
      | none =>
          dsimp only [move]
          rw [hx]
          exact ⟨_, _, rfl, (put_self t i).symm, .refl _ _⟩
      | some x =>
          dsimp only [move]
          rw [hx, obtained?_eq hx]
          exact ⟨_, _, rfl, rfl, Rival.act_turn x a⟩
  | wait ms => exact Or.inl ⟨rfl, rfl, fun _ => rfl⟩
  | ask c =>
      left
      dsimp only [move]
      split
      · rename_i hc
        exact ⟨rfl, rfl, fun _ => Registry.isAttached_call hc⟩
      · exact ⟨rfl, rfl, fun _ => rfl⟩
  | renew => exact Or.inl ⟨rfl, rfl, fun h => Registry.isAttached_renew t.registry h⟩

/-- Who has obtained a receiver has done so for good. -/
theorem obtained?_move (ho : t.obtained? i = some h) (m : Move) :
    (t.move m).obtained? i = some h := by
  rcases moved t m with ⟨_, hrivals, _⟩ | ⟨j, y, registry, _, heq, hturn⟩
  · unfold obtained?
    rw [hrivals]
    exact ho
  · rw [heq]
    by_cases hj : i = j
    · subst hj
      rw [obtained?_put_self]
      exact hturn.kept ho
    · rw [obtained?_put_ne hj]
      exact ho

theorem obtained?_play (ho : t.obtained? i = some h) (ms : List Move) :
    (t.play ms).obtained? i = some h := by
  induction ms generalizing t with
  | nil => exact ho
  | cons m ms ih => exact ih (obtained?_move ho m)

/-! ### Attempts in vain -/

/-- **What a party does in vain concerns nobody else.** -/
theorem move_vain {m : Move} (hm : m.party? = some i) (hv : (t.move m).obtained? i = none) :
    ∃ y, t.move m = t.put i y t.registry := by
  rcases moved t m with ⟨hnone, _⟩ | ⟨j, y, registry, hj, heq, hturn⟩
  · rw [hm] at hnone
    exact absurd hnone (by simp)
  · have hij : j = i := Option.some.inj (hj.symm.trans hm)
    subst hij
    rw [heq, obtained?_put_self] at hv
    rw [heq, hturn.vain hv]
    exact ⟨y, rfl⟩

theorem put_without (hj : j ≠ i) (y : Option Rival) (registry : Registry) :
    (t.put j y registry).without i = (t.without i).put j y registry := by
  unfold without put
  dsimp only
  rw [Function.update_comm hj]

/-- The others do not notice whether a party is there. -/
theorem move_without {m : Move} (hm : m.party? ≠ some i) :
    (t.move m).without i = (t.without i).move m := by
  have hothers : ∀ j, j ≠ i → (t.without i).rivals j = t.rivals j :=
    fun j hj => Function.update_of_ne hj _ _
  cases m with
  | come j way =>
      have hj : j ≠ i := fun hji => hm (congrArg some hji)
      dsimp only [move]
      rw [hothers j hj]
      cases t.rivals j with
      | some x => rfl
      | none => exact put_without hj _ _
  | act j a =>
      have hj : j ≠ i := fun hji => hm (congrArg some hji)
      dsimp only [move]
      rw [hothers j hj]
      cases t.rivals j with
      | none => rfl
      | some x => exact put_without hj _ _
  | wait ms => rfl
  | ask c =>
      dsimp only [move]
      split <;> rfl
  | renew => rfl

/-- **A run with a party that obtains nothing is the run without it.** -/
theorem play_without (ms : List Move) (hv : (t.play ms).obtained? i = none) :
    (t.play ms).without i = (t.without i).play (ms.filter (·.party? != some i)) := by
  induction ms generalizing t with
  | nil => rfl
  | cons m ms ih =>
      have hrest : (t.play (m :: ms)).without i
          = ((t.move m).without i).play (ms.filter (·.party? != some i)) := ih hv
      rw [hrest]
      by_cases hm : m.party? = some i
      · rw [List.filter_cons_of_neg (by simpa using hm)]
        -- it has obtained nothing so far, for what is obtained stays so
        have hnow : (t.move m).obtained? i = none := by
          cases ho : (t.move m).obtained? i with
          | none => rfl
          | some h =>
              have hend : ((t.move m).play ms).obtained? i = some h := obtained?_play ho ms
              exact absurd (hend.symm.trans hv) (by simp)
        obtain ⟨y, hy⟩ := move_vain hm hnow
        rw [hy]
        unfold without put
        dsimp only
        rw [Function.update_idem]
      · rw [List.filter_cons_of_pos (by simpa using hm), move_without hm]
        rfl

/-! ### One reader -/

/-- **The invariant of a contest.** -/
structure Inv (t : Contest) : Prop where
  /-- No receiver is obtained twice. -/
  single : ∀ i j h, t.obtained? i = some h → t.obtained? j = some h → i = j
  /-- The entries that are attached are those whose receivers were obtained. -/
  attached : ∀ h, t.registry.isAttached h = true ↔ ∃ i, t.obtained? i = some h

theorem inv_empty : Inv {} where
  single := fun i j h ho => absurd ho (by simp [obtained?])
  attached := fun h => by simp [obtained?, Registry.isAttached, Registry.entry?]

/-- **Preserved by every move.** -/
theorem inv_move (hi : t.Inv) (m : Move) : (t.move m).Inv := by
  rcases moved t m with ⟨_, hrivals, hflags⟩ | ⟨i, y, registry, _, heq, hturn⟩
  · have hsame : ∀ i, (t.move m).obtained? i = t.obtained? i := by
      intro i
      unfold obtained?
      rw [hrivals]
    refine ⟨fun i j h hih hjh => ?_, fun h => ?_⟩
    · rw [hsame] at hih hjh
      exact hi.single i j h hih hjh
    · simp only [hsame]
      rw [hflags]
      exact hi.attached h
  · have hself := obtained?_put_self t i y registry
    have hflags := hturn.flags fun h ho => (hi.attached h).mpr ⟨i, ho⟩
    -- a receiver that the party has now and another had before was the party's own
    have hown : ∀ j h, j ≠ i → y.bind Rival.obtained? = some h → t.obtained? j = some h →
        False := by
      intro j h hj hih hjh
      rcases hturn.gain hih with hold | ⟨_, hfree⟩
      · exact hj (hi.single j i h hjh hold)
      · rw [(hi.attached h).mpr ⟨j, hjh⟩] at hfree
        exact absurd hfree (by simp)
    rw [heq]
    refine ⟨fun j k h hjh hkh => ?_, fun h => ?_⟩
    · by_cases hj : j = i <;> by_cases hk : k = i
      · rw [hj, hk]
      · subst hj
        rw [hself] at hjh
        rw [obtained?_put_ne hk] at hkh
        exact (hown k h hk hjh hkh).elim
      · subst hk
        rw [hself] at hkh
        rw [obtained?_put_ne hj] at hjh
        exact (hown j h hj hkh hjh).elim
      · rw [obtained?_put_ne hj] at hjh
        rw [obtained?_put_ne hk] at hkh
        exact hi.single j k h hjh hkh
    · rw [show (t.put i y registry).registry = registry from rfl, hflags h, hi.attached h]
      constructor
      · rintro (hnew | ⟨j, hj⟩)
        · exact ⟨i, hself.trans hnew⟩
        · exact ⟨j, by rw [← heq]; exact obtained?_move hj m⟩
      · rintro ⟨j, hj⟩
        by_cases hji : j = i
        · subst hji
          exact Or.inl (hself.symm.trans hj)
        · rw [obtained?_put_ne hji] at hj
          exact Or.inr ⟨j, hj⟩

theorem inv_play (hi : t.Inv) (ms : List Move) : (t.play ms).Inv := by
  induction ms generalizing t with
  | nil => exact hi
  | cons m ms ih => exact ih (inv_move hi m)

/-- **What is true of all who want to read.** -/
structure Fair (t : Contest) : Prop where
  /-- One party at most obtains the receiver of an entry, -/
  single : ∀ i j h, t.obtained? i = some h → t.obtained? j = some h → i = j
  /-- and the entry is attached if one has. -/
  attached : ∀ h, t.registry.isAttached h = true ↔ ∃ i, t.obtained? i = some h
  /-- An entry comes to be attached by the move that obtains its receiver, and by no other, -/
  turns : ∀ m h, t.registry.isAttached h = false ∧ (t.move m).registry.isAttached h = true
    ↔ ∃ i, t.obtained? i = none ∧ (t.move m).obtained? i = some h
  /-- and stays attached, whatever comes; the receiver remains that party's. -/
  stays : ∀ h, t.registry.isAttached h = true → ∀ ms,
    (t.play ms).registry.isAttached h = true
      ∧ ∀ i, t.obtained? i = some h ↔ (t.play ms).obtained? i = some h
  /-- As long as the entry is not attached, whoever asks for the receiver obtains it. -/
  free : ∀ h e i, t.registry.entry? h = some e → t.registry.isAttached h = false →
    (t.rivals i = none → (t.move (.come i (.take h))).obtained? i = some h)
      ∧ (∀ id, t.rivals i = some (.found id h) → (t.move (.act i .claim)).obtained? i = some h)
      ∧ ∀ a, t.rivals i = some (.polling a) → a.next ≤ t.now →
        t.registry.lookup? a.id = some h → (t.move (.act i .look)).obtained? i = some h
  /-- Afterwards everybody fails, -/
  refused : ∀ h i, t.registry.isAttached h = true →
    (t.rivals i = none → (t.move (.come i (.take h))).rivals i = some (.refused h))
      ∧ (∀ id, t.rivals i = some (.found id h) →
        (t.move (.act i .claim)).rivals i = some (.failed (.alreadyAttached id)))
      ∧ ∀ a, t.rivals i = some (.polling a) → a.next ≤ t.now →
        t.registry.lookup? a.id = some h →
        (t.move (.act i .look)).rivals i = some (.failed (.alreadyAttached a.id))
  /-- and what a party does without obtaining anything changes nothing but what is known of
  itself: the entries, the listed ids, the other sinks and what they have read stay. -/
  vain : ∀ m i, m.party? = some i → (t.move m).obtained? i = none →
    ∃ y, t.move m = t.put i y t.registry
  /-- Whatever comes is then as if the party had not come. -/
  erased : ∀ ms i, (t.play ms).obtained? i = none →
    (t.play ms).without i = (t.without i).play (ms.filter (·.party? != some i))

/-- The party whose move makes an entry attached has obtained its receiver. -/
theorem Inv.turns (hi : t.Inv) (m : Move) (h : Handle) :
    t.registry.isAttached h = false ∧ (t.move m).registry.isAttached h = true
      ↔ ∃ i, t.obtained? i = none ∧ (t.move m).obtained? i = some h := by
  constructor
  · rintro ⟨hbefore, hafter⟩
    obtain ⟨i, ho⟩ := ((inv_move hi m).attached h).mp hafter
    refine ⟨i, ?_, ho⟩
    cases hold : t.obtained? i with
    | none => rfl
    | some k =>
        have hk : some k = some h := (obtained?_move hold m).symm.trans ho
        rw [hk] at hold
        rw [(hi.attached h).mpr ⟨i, hold⟩] at hbefore
        exact absurd hbefore (by simp)
  · rintro ⟨i, hbefore, hafter⟩
    refine ⟨?_, ((inv_move hi m).attached h).mpr ⟨i, hafter⟩⟩
    rcases moved t m with ⟨_, hrivals, _⟩ | ⟨j, y, registry, _, heq, hturn⟩
    · have hsame : (t.move m).obtained? i = t.obtained? i := by
        unfold obtained?
        rw [hrivals]
      rw [hsame, hbefore] at hafter
      exact absurd hafter (by simp)
    · rw [heq] at hafter
      by_cases hij : i = j
      · subst hij
        rw [obtained?_put_self] at hafter
        rcases hturn.gain hafter with hold | ⟨_, hfree⟩
        · rw [hbefore] at hold
          exact absurd hold (by simp)
        · exact hfree
      · rw [obtained?_put_ne hij, hbefore] at hafter
        exact absurd hafter (by simp)

theorem Inv.stays (hi : t.Inv) (hatt : t.registry.isAttached h = true) (ms : List Move) :
    (t.play ms).registry.isAttached h = true
      ∧ ∀ i, t.obtained? i = some h ↔ (t.play ms).obtained? i = some h := by
  obtain ⟨j, hj⟩ := (hi.attached h).mp hatt
  have hend := obtained?_play hj ms
  refine ⟨((inv_play hi ms).attached h).mpr ⟨j, hend⟩, fun i => ⟨fun ho => ?_, fun ho => ?_⟩⟩
  · exact obtained?_play ho ms
  · rw [(inv_play hi ms).single i j h ho hend]
    exact hj

/-- What a party comes to that asks for a receiver, by what the registry says to that. -/
theorem move_take (i : Nat) (h : Handle) :
    (t.rivals i = none → t.move (.come i (.take h))
        = match t.registry.take? h with
          | some registry => t.put i (some (.receiver h [])) registry
          | none => t.put i (some (.refused h)) t.registry)
      ∧ (∀ id, t.rivals i = some (.found id h) → t.move (.act i .claim)
        = match t.registry.take? h with
          | some registry => t.put i (some (.sink { handle := h } [])) registry
          | none => t.put i (some (.failed (.alreadyAttached id))) t.registry)
      ∧ ∀ a, t.rivals i = some (.polling a) → a.next ≤ t.now →
        t.registry.lookup? a.id = some h → t.move (.act i .look)
        = match t.registry.take? h with
          | some registry => t.put i (some (.sink { handle := h } [])) registry
          | none => t.put i (some (.failed (.alreadyAttached a.id))) t.registry := by
  refine ⟨fun hx => ?_, fun id hx => ?_, fun a hx hdue hl => ?_⟩
  · dsimp only [move]
    rw [hx]
    dsimp only [Rival.come]
    cases t.registry.take? h <;> rfl
  · dsimp only [move]
    rw [hx]
    dsimp only [Rival.act]
    cases t.registry.take? h <;> rfl
  · dsimp only [move]
    rw [hx]
    dsimp only
    rw [(Rival.act_look hdue hl).2]
    dsimp only [Rival.act]
    cases t.registry.take? h <;> rfl

theorem Inv.fair (hi : t.Inv) : t.Fair where
  single := hi.single
  attached := hi.attached
  turns := hi.turns
  stays := fun _ hatt => hi.stays hatt
  free := by
    intro h e i he hatt
    obtain ⟨registry, ht⟩ := Registry.take?_free he hatt
    obtain ⟨htake, hclaim, hlook⟩ := move_take (t := t) i h
    rw [ht] at htake hclaim hlook
    refine ⟨fun hx => ?_, fun id hx => ?_, fun a hx hdue hl => ?_⟩
    · rw [htake hx]
      exact obtained?_put_self _ _ _ _
    · rw [hclaim id hx]
      exact obtained?_put_self _ _ _ _
    · rw [hlook a hx hdue hl]
      exact obtained?_put_self _ _ _ _
  refused := by
    intro h i hatt
    obtain ⟨htake, hclaim, hlook⟩ := move_take (t := t) i h
    rw [Registry.take?_attached hatt] at htake hclaim hlook
    refine ⟨fun hx => ?_, fun id hx => ?_, fun a hx hdue hl => ?_⟩
    · rw [htake hx]
      exact Function.update_self ..
    · rw [hclaim id hx]
      exact Function.update_self ..
    · rw [hlook a hx hdue hl]
      exact Function.update_self ..
  vain := fun _ _ hm hv => move_vain hm hv
  erased := fun ms _ hv => play_without ms hv

/-- **The receiver of an entry goes to one party, and the others come in vain.** However sinks,
those who take receivers themselves, and all others who use the registry take turns. -/
theorem contest_fair (ms : List Move) : Fair (play {} ms) :=
  (inv_play inv_empty ms).fair

end Contest
end Intake
