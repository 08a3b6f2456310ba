import Intake.Proofs.Delivery
import Intake.Proofs.Epochs

/-!
# The closing of a session's entry

A session's entry is closed by its run at the deadline, when the run returns, and when it is
given up; anybody else may close it before. That the run's call does close it, whatever was
asked of the registry since and even if another registry has taken its place, rests on
`Registry.Held`: an entry that is not closed is the one its id names, or its registry is gone.
-/

namespace Intake

namespace Registry

/-- The entry of a handle is there, and closed. -/
def Closed (r : Registry) (h : Handle) : Prop :=
  ∃ e, r.entry? h = some e ∧ e.closed = true

/-- An entry that is not closed is the one that its id names, or its registry is gone. -/
def Held (r : Registry) (h : Handle) : Prop :=
  ∃ e, r.entry? h = some e
    ∧ (e.closed = true ∨ e.orphaned = true ∨ r.lookup? e.session = some h)

variable {r r' : Registry} {h : Handle}

/-! ## A closed entry stays closed -/

theorem Closed.calls (hc : r.Closed h) (cs : List Call) : Closed (r.calls cs) h := by
  obtain ⟨e, he, hcl⟩ := hc
  obtain ⟨e', he', hstays⟩ := entry?_calls cs he
  exact ⟨e', he', hstays hcl⟩

theorem Closed.renew (hc : r.Closed h) : Closed (Registry.renew r) h := by
  obtain ⟨e, he, hcl⟩ := hc
  exact ⟨_, entry?_renew he, hcl⟩

/-! ## An entry stays in its parties' hands -/

theorem lookup?_opened {id s : String} {k : Handle} (hl : r.lookup? s = some k) :
    (r.opened id).lookup? s = some k := by
  unfold lookup? at hl ⊢
  obtain ⟨x, hx, heq⟩ := Option.map_eq_some_iff.mp hl
  unfold opened
  rw [List.find?_append, hx]
  exact congrArg some heq

/-- Removing an id leaves the others what they name. -/
theorem lookup?_remove {id s : String} {k : Handle} (hs : s ≠ id) :
    lookup? (r.remove id k) s = r.lookup? s := by
  have hsame : ∀ x : String × Handle, (decide ((x.1 != id) = true ∧ (x.1 == s) = true))
      = (x.1 == s) := by
    intro x
    by_cases hx : x.1 = s
    · simp [hx, hs]
    · simp [hx]
  unfold lookup? remove unlist cancel modify
  rw [List.find?_filter]
  simp only [hsame]

/-- **Kept by every call.** -/
theorem Held.became {o k : Option Nat} (hh : r.Held h) (hb : r.Became o k r') : r'.Held h := by
  obtain ⟨e, he, hor⟩ := hh
  cases hb with
  | same => exact ⟨e, he, hor⟩
  | opened id _ =>
      exact ⟨e, entry?_opened_old he, hor.imp_right fun ho => ho.imp_right lookup?_opened⟩
  | removed id k hl =>
      by_cases hk : k = h
      · subst hk
        exact ⟨e.close, entry?_modify_self he, Or.inl rfl⟩
      · refine ⟨e, (entry?_modify_ne hk).trans he, ?_⟩
        rcases hor with hcl | horphan | hown
        · exact Or.inl hcl
        · exact Or.inr (Or.inl horphan)
        · -- the id that goes names another entry
          have hid : e.session ≠ id := by
            intro hid
            rw [hid, hl] at hown
            exact hk (Option.some.inj hown)
          exact Or.inr (Or.inr ((lookup?_remove hid).trans hown))
  | kept hf hkeep =>
      obtain ⟨e', he', hk⟩ := entry?_kept hf hkeep he
      refine ⟨e', he', ?_⟩
      rw [hk.closed, hk.orphaned, hk.session]
      exact hor
  | orphanClosed _ _ =>
      rcases entry?_modify_close he with hsame | hclosed
      · exact ⟨e, hsame, hor⟩
      · exact ⟨e.close, hclosed, Or.inl rfl⟩

theorem Held.calls (hh : r.Held h) (cs : List Call) : Held (r.calls cs) h := by
  induction cs generalizing r with
  | nil => exact hh
  | cons c cs ih => exact ih (hh.became (call_became r c))

theorem Held.renew (hh : r.Held h) : Held (Registry.renew r) h := by
  obtain ⟨e, he, _⟩ := hh
  exact ⟨_, entry?_renew he, Or.inr (Or.inl rfl)⟩

/-- The entry of a session that was opened just now. -/
theorem held_open {id : String} (ho : r.open? id = some (h, r')) : r'.Held h := by
  rw [open?_eq] at ho
  by_cases hc : r.contains id = true
  · rw [if_pos hc] at ho
    exact absurd ho (by simp)
  · rw [if_neg hc] at ho
    cases ho
    refine ⟨_, entry?_opened_new r id, Or.inr (Or.inr ?_)⟩
    have hnone : r.live.find? (·.1 == id) = none := by
      have hl := contains_eq_false (by simpa using hc)
      unfold lookup? at hl
      exact Option.map_eq_none_iff.mp hl
    unfold lookup? opened
    dsimp only
    rw [List.find?_append, hnone]
    simp

/-- **Closing through the handle closes the entry.** -/
theorem Held.closeEntry (hh : r.Held h) : Closed (r.closeEntry h).2 h := by
  obtain ⟨e, he, hor⟩ := hh
  by_cases hcl : e.closed = true
  · rcases entry?_closeEntry (k := h) he with hsame | hclosed
    · exact ⟨e, hsame, hcl⟩
    · exact ⟨e.close, hclosed, rfl⟩
  · refine ⟨e.close, ?_, rfl⟩
    rw [Registry.closeEntry_eq]
    rw [he]
    dsimp only
    by_cases horphan : e.orphaned = true
    · rw [if_pos horphan]
      exact entry?_modify_self he
    · -- the id still names this entry, so the epochs agree
      rw [if_neg horphan, (hor.resolve_left hcl).resolve_left horphan]
      dsimp only
      rw [he, Option.map_some, if_pos rfl]
      exact entry?_modify_self he

end Registry

/-! ## When a session has closed its entry -/

namespace Run

/-- Holds of a run that has closed its entry: at the deadline, in the end, or when it was
given up. -/
def HasClosed (r : Run) : Prop :=
  r.deadlineElapsed = true ∨ r.phase = .overdue ∨ r.isOver = true

variable {r r' : Run} {hub hub' : Hub} {a : Action} {handed : List Event}
  {decides : List (Event × DeliveryOutcome)}

/-- What a step does to the registry are calls. -/
theorem Acted.calls (ha : r.Acted hub a handed decides hub' r') :
    ∃ cs, hub'.registry = hub.registry.calls cs := by
  have hdec := ha.decided_of
  generalize hub'.registry = registry at hdec ⊢
  cases hdec with
  | nothing cs _ heq => exact ⟨cs, heq⟩
  | hidden e heq => exact ⟨[], heq⟩
  | shown hd => exact ⟨[.deliver _ _ _ _], (Registry.call_deliver hd).symm⟩

theorem Acted.handle (ha : r.Acted hub a handed decides hub' r') : r'.handle = r.handle := by
  cases ha with
  | @worked i w s _ _ =>
      unfold applyStep
      cases s.event <;> cases s.leaves <;> rfl
  | _ => rfl

theorem hasClosed_of_open (hc : r'.HasClosed) (he : r'.deadlineElapsed = r.deadlineElapsed)
    (hp : r'.phase ≠ .overdue) (ho : r'.isOver = false) : r.HasClosed := by
  rcases hc with hel | hov | hover
  · exact Or.inl (he.symm.trans hel)
  · exact absurd hov hp
  · rw [ho] at hover
    exact absurd hover (by simp)

/-- **A run comes to have closed its entry by a step that closes it.** -/
theorem Acted.closing (ha : r.Acted hub a handed decides hub' r') (hc : r'.HasClosed) :
    r.HasClosed ∨ hub'.registry = (hub.registry.closeEntry r.handle).2 := by
  cases ha with
  | announced _ => exact Or.inl (hasClosed_of_open hc rfl (by simp [emit]) rfl)
  | allQueued _ _ => exact Or.inl (hasClosed_of_open hc rfl (by simp) rfl)
  | allSpawned _ _ => exact Or.inl (hasClosed_of_open hc rfl (by simp) rfl)
  | passed _ _ => exact Or.inl (hasClosed_of_open hc rfl (by simp) rfl)
  | expired _ _ => exact Or.inr rfl
  | collected _ _ => exact Or.inl (hasClosed_of_open hc rfl (by simp) rfl)
  | submitted _ => exact Or.inl (hasClosed_of_open hc rfl (by simp) rfl)
  | answered _ _ => exact Or.inl (hasClosed_of_open hc rfl (by simp) rfl)
  | stopped _ => exact Or.inl (hasClosed_of_open hc rfl (by simp) rfl)
  | returned _ _ => exact Or.inr rfl
  | @worked i w s _ _ =>
      left
      unfold applyStep at hc
      cases he : s.event <;> cases hl : s.leaves <;> rw [he, hl] at hc <;> exact hc
  | _ => exact Or.inl hc

end Run

namespace Course

/-- **The invariant of a session and its entry.** -/
structure Secured (p : Prepared) (c : Course) : Prop where
  handle : c.handle = p.handle
  running : ∀ r, c.stage = .running r → r.handle = c.handle
  held : c.hub.registry.Held c.handle
  /-- What a run has closed is closed. -/
  closed : ∀ r, c.stage = .running r → r.HasClosed → c.hub.registry.Closed c.handle

variable {p : Prepared} {c c' : Course}

/-- Calls on the registry, of whomever. -/
theorem Secured.calls (h : c.Secured p) (cs : List Registry.Call) (hstage : c'.stage = c.stage)
    (hh : c'.handle = c.handle) (hcs : c'.hub.registry = c.hub.registry.calls cs) :
    c'.Secured p where
  handle := hh.trans h.handle
  running := by
    rw [hstage, hh]
    exact h.running
  held := by
    rw [hcs, hh]
    exact h.held.calls cs
  closed := by
    rw [hstage, hcs, hh]
    exact fun r hs hc => (h.closed r hs hc).calls cs

/-- A step of the session. -/
theorem Secured.acted {r r' : Run} {a : Run.Action} {handed : List Event}
    {decides : List (Event × DeliveryOutcome)} {hub : Hub} (h : c.Secured p)
    (hs : c.stage = .running r) (ha : r.Acted c.hub a handed decides hub r') :
    Secured p { c with
      hub
      stage := .running r'
      log := c.log ++ handed
      decided := c.decided ++ decides } := by
  obtain ⟨cs, hcs⟩ := ha.calls
  refine ⟨h.handle, ?_, ?_, ?_⟩
  · intro r₁ hr
    cases hr
    exact ha.handle.trans (h.running r hs)
  · show hub.registry.Held c.handle
    rw [hcs]
    exact h.held.calls cs
  · intro r₁ hr hc
    cases hr
    show hub.registry.Closed c.handle
    rcases ha.closing hc with hbefore | hnow
    · rw [hcs]
      exact (h.closed r hs hbefore).calls cs
    · rw [hnow, h.running r hs]
      exact h.held.closeEntry

/-- A run that is given up closes its entry. -/
theorem Secured.abandoned {r : Run} (h : c.Secured p) (hs : c.stage = .running r) :
    Secured p { c with hub := (r.abandon c.hub).1, stage := .running (r.abandon c.hub).2 } := by
  unfold Run.abandon
  split
  · refine ⟨h.handle, ?_, h.held.calls [.closeEntry r.handle], ?_⟩
    · intro r₁ hr
      cases hr
      exact h.running r hs
    · intro r₁ hr _
      show Registry.Closed (c.hub.registry.closeEntry r.handle).2 c.handle
      rw [h.running r hs]
      exact h.held.closeEntry
  · refine ⟨h.handle, ?_, h.held, ?_⟩
    · intro r₁ hr
      cases hr
      exact h.running r hs
    · intro r₁ hr hc
      cases hr
      exact h.closed r hs hc

/-- **Preserved by every move.** -/
theorem secured_moved (hb : c.Books p) (h : c.Secured p) (hm : c.Moved c') : c'.Secured p := by
  cases hm with
  | same => exact h
  | arranged mirror table _ =>
      exact ⟨h.handle, fun r hr => absurd hr (by simp), h.held, fun r hr => absurd hr (by simp)⟩
  | @started q hs =>
      refine ⟨h.handle, ?_, h.held, ?_⟩
      · intro r hr
        cases hr
        exact (hb.prepared hs).1.trans h.handle.symm
      · intro r hr hc
        cases hr
        rcases hc with hc | hc | hc <;> exact absurd hc (by simp [Run.start, Run.isOver])
  | acted hs ha => exact h.acted hs ha
  | abandoned hs => exact h.abandoned hs
  | @tended r mirror table hs =>
      refine ⟨h.handle, ?_, h.held, ?_⟩
      · intro r₁ hr
        cases hr
        exact h.running r hs
      · intro r₁ hr hc
        cases hr
        exact h.closed r hs hc
  | read m =>
      obtain ⟨cs, hcs⟩ := c.outlet.move_calls c.handle c.hub.now c.hub.registry m
      exact h.calls cs rfl rfl hcs
  | @asked call _ => exact h.calls [call] rfl rfl rfl
  | renewed => exact ⟨h.handle, h.running, h.held.renew, fun r hr hc => (h.closed r hr hc).renew⟩
  | around hreg _ => exact h.calls [] rfl rfl hreg

theorem secured_of {table : ExtractorTable} {settings : SessionSettings} {id : Option String}
    {files : List Submission} {hub hub' : Hub}
    (ho : Prepared.open? table settings id files hub = (.ok p, hub')) :
    (of p hub').Secured p := by
  obtain ⟨chosen, hreg, _⟩ := open?_ok ho
  exact ⟨rfl, fun r hr => absurd hr (by simp [of]), Registry.held_open hreg,
    fun r hr => absurd hr (by simp [of])⟩

theorem secured_play {hub : Hub} (h : (of p hub).Secured p) (ms : List Move) :
    ((of p hub).play ms).Secured p :=
  play_booked (Secured p) (fun _ _ _ hb hm hsec => secured_moved hb hsec hm) h ms

end Course
end Intake
