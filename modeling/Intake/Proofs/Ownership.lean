import Intake.Proofs.Fleet

/-!
# Who owns the open entries

An entry is made when a session is opened, and the run closes it: when it returns, and when it
is given up at one of the points at which it waits. A session that is given up before it runs
has nothing yet that would close its entry. So an open entry belongs to a session that is still
prepared, to a run that is still alive, or to a session that never ran; and in the last case its
id stays taken until somebody else closes it.
-/

namespace Intake

namespace Member

/-- Holds while the session is prepared, or its run is not over. -/
def isAlive (m : Member) : Bool :=
  match m.stage with
  | .prepared _ => !m.gone
  | .running r => !r.isOver

end Member

namespace Fleet

/-- Every open entry belongs to a session that is alive. -/
def Accounted (f : Fleet) : Prop :=
  ∀ id h, (id, h) ∈ f.hub.registry.live →
    ∃ m, f.members[h]? = some m ∧ m.opened.id = id ∧ m.isAlive = true

/-- Holds of the moves by which an entry may be closed from outside. -/
def Move.mayClose (id : String) (h : Handle) : Move → Bool
  | .close id' => id' == id
  | .closeEntry k => k == h
  | .leave _ => true
  | _ => false

/-- **Who owns the open entries of a fleet.** -/
structure Owned (f : Fleet) : Prop where
  /-- A session that is alive, or one that was given up before it ran. -/
  owner : ∀ id h, (id, h) ∈ f.hub.registry.live → ∃ m, f.members[h]? = some m
    ∧ m.opened.id = id ∧ (m.isAlive = true ∨ m.gone = true)
  /-- An id without either is not in use, and can be opened. -/
  free : ∀ id, (∀ m ∈ f.members, m.opened.id = id → m.isAlive = false ∧ m.gone = false) →
    f.hub.registry.contains id = false
      ∧ ∀ table settings given files, settings.validateBatch files.length = .ok () →
        Identifier.resolve given (Identifier.fresh f.hub.serial) = id →
        ∃ p hub, Prepared.open? table settings given files f.hub = (.ok p, hub) ∧ p.id = id
  /-- A session that was given up before it ran never closes its entry. -/
  left : ∀ id h m, (id, h) ∈ f.hub.registry.live → f.members[h]? = some m → m.gone = true →
    ∀ ms, (∀ mv ∈ ms, mv.mayClose id h = false) → (id, h) ∈ (f.play ms).hub.registry.live

variable {f : Fleet} {id : String} {h : Handle}

/-- An open entry is a member's, and no run of it is over. -/
theorem Charted.owner (hf : f.Charted) (hlive : (id, h) ∈ f.hub.registry.live) :
    ∃ m, f.members[h]? = some m ∧ m.opened.id = id ∧ (m.isAlive = true ∨ m.gone = true) := by
  obtain ⟨e, he, hid, hopen⟩ := (hf.sound.live id h).mp hlive
  have hlt : h < f.members.length := by
    rw [← hf.entries]
    exact Registry.entry?_lt he
  obtain ⟨m, hi⟩ : ∃ m, f.members[h]? = some m := ⟨_, List.getElem?_eq_getElem hlt⟩
  obtain ⟨e₁, he₁, hname⟩ := hf.named h m hi
  rw [he] at he₁
  cases he₁
  refine ⟨m, hi, hname.symm.trans hid, ?_⟩
  unfold Member.isAlive
  cases hs : m.stage with
  | prepared p =>
      cases m.gone with
      | false => exact Or.inl rfl
      | true => exact Or.inr rfl
  | running r =>
      left
      cases hover : r.isOver with
      | false =>
          dsimp only
          rw [hover]
          rfl
      | true =>
          -- a run that is over has closed its entry
          obtain ⟨e₂, he₂, hcl⟩ := (hf.courses m (List.mem_of_getElem? hi)).closed hs hover
          dsimp only [course] at he₂
          rw [hf.places h m hi, he] at he₂
          cases he₂
          rw [hopen] at hcl
          exact absurd hcl (by simp)

theorem Charted.free (hf : f.Charted)
    (hno : ∀ m ∈ f.members, m.opened.id = id → m.isAlive = false ∧ m.gone = false) :
    f.hub.registry.contains id = false := by
  cases hc : f.hub.registry.contains id with
  | false => rfl
  | true =>
      obtain ⟨h, hl⟩ := Option.isSome_iff_exists.mp hc
      obtain ⟨m, hi, hid, halive | hgone⟩ := hf.owner (Registry.mem_of_lookup? hl)
      · rw [(hno m (List.mem_of_getElem? hi) hid).1] at halive
        exact absurd halive (by simp)
      · rw [(hno m (List.mem_of_getElem? hi) hid).2] at hgone
        exact absurd hgone (by simp)

/-! ## The entry of a session that never ran -/

theorem live_take {r r' : Registry} {k : Handle} (ht : r.take? k = some r') : r'.live = r.live := by
  unfold Registry.take? at ht
  split at ht
  · cases ht
    rfl
  · exact absurd ht (by simp)

theorem live_receive {r r' : Registry} {s s' : Sink} {now deadline : Nat} {a : Option Event}
    (hr : s.receive? r now deadline = some (a, s', r')) : r'.live = r.live := by
  obtain ⟨_, ⟨_, _, _, heq⟩ | ⟨_, hlook, _⟩⟩ := Sink.receive?_some hr
  · rw [heq]
  · unfold Registry.receive? at hlook
    split at hlook
    · cases hlook
      rfl
    · obtain ⟨x, _, heq⟩ := Option.map_eq_some_iff.mp hlook
      cases heq
      rfl

/-- A session that was given up before it ran, and its entry, which is open. -/
def Stranded (f : Fleet) (id : String) (h : Handle) : Prop :=
  (id, h) ∈ f.hub.registry.live ∧ ∃ m, f.members[h]? = some m ∧ m.gone = true

theorem Stranded.set (hs : f.Stranded id h) {f' : Fleet} {i : Nat} {m : Member}
    (hlive : (id, h) ∈ f'.hub.registry.live) (hm : f'.members = f.members.set i m)
    (hi : i ≠ h) : f'.Stranded id h := by
  obtain ⟨_, m₀, hat, hgone⟩ := hs
  refine ⟨hlive, m₀, ?_, hgone⟩
  rw [hm, List.getElem?_set_ne hi]
  exact hat

/-- **It stays open with every move but those that close it from outside.** -/
theorem Stranded.moved (hf : f.Charted) (hs : f.Stranded id h) {mv : Move}
    (hmv : mv.mayClose id h = false) : (f.move mv).Stranded id h := by
  have hstranded := hs
  obtain ⟨hlive, m, hat, hgone⟩ := hstranded
  cases mv with
  | prepare table settings given files =>
      dsimp only [move]
      split
      · rename_i p hub ho
        refine ⟨?_, m, ?_, hgone⟩
        · show (id, h) ∈ hub.registry.live
          rw [(Prepared.open?_entry ho).2.2]
          exact List.mem_append_left _ hlive
        · show (f.members ++ [_])[h]? = some m
          rw [List.getElem?_append_left (List.getElem?_eq_some_iff.mp hat).1]
          exact hat
      · rename_i e hub ho
        refine ⟨?_, m, hat, hgone⟩
        show (id, h) ∈ hub.registry.live
        rw [(Prepared.open?_hub ho).2 ⟨e, rfl⟩]
        exact hlive
  | discard i =>
      dsimp only [move]
      split
      · exact hs
      · rename_i m' hi
        split
        · rename_i p hgone' _
          refine hs.set hlive rfl ?_
          -- it cannot be given up twice
          rintro rfl
          rw [hat] at hi
          cases hi
          rw [hgone] at hgone'
          exact absurd hgone' (by simp)
        · exact hs
  | session i mv =>
      dsimp only [move]
      split
      · exact hs
      · rename_i m' hi
        split
        · rename_i hown
          have hih : i ≠ h := by
            -- a session that was given up makes no move
            rintro rfl
            rw [hat] at hi
            cases hi
            rw [hgone] at hown
            exact absurd hown (by simp)
          -- what another session asks concerns its own entry
          have hsame := hf.advance_same hi (Bool.and_eq_true_iff.mp hown).1 (Ne.symm hih)
          exact hs.set ((hsame.listed id).mpr hlive) rfl hih
        · exact hs
  | seek a =>
      dsimp only [move]
      split
      · rename_i s registry ha
        refine ⟨?_, m, hat, hgone⟩
        show (id, h) ∈ registry.live
        rw [live_take (step?_attached ha).2.2]
        exact hlive
      · exact hs
  | attach k =>
      dsimp only [move]
      split
      · rename_i registry ht
        refine ⟨?_, m, hat, hgone⟩
        show (id, h) ∈ registry.live
        rw [live_take ht]
        exact hlive
      · exact hs
  | receive k deadline =>
      dsimp only [move]
      split
      · exact hs
      · split
        · exact hs
        · split
          · rename_i a s registry hr
            refine ⟨?_, m, hat, hgone⟩
            show (id, h) ∈ registry.live
            rw [live_receive hr]
            exact hlive
          · exact hs
  | leave k => exact absurd hmv (by simp [Move.mayClose])
  | wait ms => exact hs
  | close id' =>
      have hne : id' ≠ id := by simpa [Move.mayClose] using hmv
      refine ⟨?_, m, hat, hgone⟩
      show (id, h) ∈ (f.hub.registry.close id').2.live
      rw [Registry.close_eq]
      split
      · exact List.mem_filter.mpr ⟨hlive, by simpa using Ne.symm hne⟩
      · exact hlive
  | closeEntry k =>
      have hne : k ≠ h := by simpa [Move.mayClose] using hmv
      have hsame := Registry.same_closeEntry hf.sound (Ne.symm hne)
      exact ⟨(hsame.listed id).mpr hlive, m, hat, hgone⟩
  | outside spools gates serial => exact hs

theorem Stranded.play (hf : f.Charted) (hs : f.Stranded id h) {ms : List Move}
    (hms : ∀ mv ∈ ms, mv.mayClose id h = false) : (f.play ms).Stranded id h := by
  induction ms generalizing f with
  | nil => exact hs
  | cons mv ms ih =>
      exact ih (hf.moved mv) (hs.moved hf (hms mv List.mem_cons_self))
        fun mv' hmv' => hms mv' (List.mem_cons_of_mem _ hmv')

/-- **The open entries have owners.** Whatever is opened, given up, run, closed and read, and in
whichever order: an open entry belongs to a session that is alive, or to one that was given up
before it ran. -/
theorem fleet_owned (ms : List Move) : Owned (play {} ms) := by
  have hf := charted_play charted_empty ms
  refine ⟨fun id h hlive => hf.owner hlive, ?_, ?_⟩
  · intro id hno
    have hfree := hf.free hno
    refine ⟨hfree, ?_⟩
    intro table settings given files hbatch hid
    rw [← hid] at hfree
    obtain ⟨p, hub, ho, hp⟩ := Prepared.open?_of_free table hbatch hfree
    exact ⟨p, hub, ho, hp.trans hid⟩
  · intro id h m hlive hat hgone ms hms
    exact (Stranded.play hf ⟨hlive, m, hat, hgone⟩ hms).1

/-- A session that is opened and given up leaves its entry behind: it is open and belongs to
nobody, and its id cannot be opened again. -/
theorem discarded_session_listed :
    let f : Submission := { fileName := "notes.txt", declared := none, size := 11, spool := 0 }
    let fleet := play {} [.prepare {} {} (some "d") [f], .discard 0]
    ¬ Accounted fleet
      ∧ (Prepared.open? {} {} (some "d") [f] fleet.hub).1 = .error (.alreadyOpen "d") := by
  intro f fleet
  refine ⟨fun hall => ?_, rfl⟩
  obtain ⟨m, hat, _, halive⟩ := hall "d" 0 (by decide)
  cases hat
  exact absurd halive (by decide)

end Fleet
end Intake
