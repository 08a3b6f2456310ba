import Intake.Proofs.Handover
import Intake.Proofs.Neighbours

/-!
# What a run does at its end

Behind its deadline a run closes its entry. One that returns closes it, lets go of the mirror, and
reads the clock. One that is given up lets go of the mirror first, and closes its entry last.
`Orderly` lists how far a run can be with this, and `Passage.Secured` what holds of its entry then:
once the run has taken its id off the list, the entry is closed, or the run or somebody else is
about to close it, and the id does not name it any more.
-/

namespace Intake

/-! ## How far a run is -/

/-- The entry that a chore closes. -/
def Chore.entry? : Chore → Option Handle
  | close k => some k
  | _ => none

/-- **What a run has to do yet**, in which phase, and whether it holds on to the mirror. -/
inductive Orderly : RunPhase → Bool → List Chore → Prop
  | begun (ph : RunPhase) : Orderly ph true ph.chores
  | expiring (k : Handle) : Orderly .overdue true [.close k]
  | expired : Orderly .overdue true []
  | returning (k : Handle) : Orderly .returned true [.close k, .release, .stamp]
  | releasing : Orderly .returned true [.release, .stamp]
  | stamping : Orderly .returned false [.stamp]
  | returned : Orderly .returned false []
  | unlisting : Orderly .abandoned false [.unlist]
  | closing (k : Handle) : Orderly .abandoned false [.close k]
  | abandoned : Orderly .abandoned false []

namespace RunPhase

/-- A phase begins with no entry that is about to be closed. -/
theorem no_entry (ph : RunPhase) : ph.chores.filterMap Chore.entry? = [] := by
  cases ph <;> rfl

theorem unlist_of_closing {ph : RunPhase} (h : ph = .overdue ∨ ph = .returned ∨ ph = .abandoned) :
    .unlist ∈ ph.chores := by
  rcases h with rfl | rfl | rfl <;> simp [chores]

end RunPhase

namespace Orderly

variable {ph : RunPhase} {holding : Bool} {c : Chore} {rest : List Chore}

/-- The id goes off the list first of all, or behind the mirror. -/
theorem unlist (h : Orderly ph holding (.unlist :: rest)) (k : Option Handle) :
    Orderly ph holding ((k.map Chore.close).toList ++ rest) := by
  generalize hcs : Chore.unlist :: rest = chores at h
  cases h with
  | begun =>
      cases ph with
      | overdue =>
          cases hcs
          cases k with
          | none => exact .expired
          | some k => exact .expiring k
      | returned =>
          cases hcs
          cases k with
          | none => exact .releasing
          | some k => exact .returning k
      | _ => exact absurd hcs (by simp [RunPhase.chores])
  | unlisting =>
      cases hcs
      cases k with
      | none => exact .abandoned
      | some k => exact .closing k
  | _ => exact absurd hcs (by simp)

/-- Before that, the run is about to close nothing. -/
theorem no_entry (h : Orderly ph holding (.unlist :: rest)) :
    rest.filterMap Chore.entry? = [] := by
  generalize hcs : Chore.unlist :: rest = chores at h
  cases h with
  | begun =>
      have hnone := ph.no_entry
      rw [← hcs] at hnone
      exact hnone
  | unlisting =>
      cases hcs
      rfl
  | _ => exact absurd hcs (by simp)

theorem close {k : Handle} (h : Orderly ph holding (.close k :: rest)) : Orderly ph holding rest := by
  generalize hcs : Chore.close k :: rest = chores at h
  cases h with
  | begun => cases ph <;> exact absurd hcs (by simp [RunPhase.chores])
  | expiring => cases hcs; exact .expired
  | returning => cases hcs; exact .releasing
  | closing => cases hcs; exact .abandoned
  | _ => exact absurd hcs (by simp)

theorem release (h : Orderly ph holding (.release :: rest)) : Orderly ph false rest := by
  generalize hcs : Chore.release :: rest = chores at h
  cases h with
  | begun =>
      cases ph with
      | abandoned => cases hcs; exact .unlisting
      | _ => exact absurd hcs (by simp [RunPhase.chores])
  | releasing => cases hcs; exact .stamping
  | _ => exact absurd hcs (by simp)

theorem stamp (h : Orderly ph holding (.stamp :: rest)) : Orderly ph holding rest := by
  generalize hcs : Chore.stamp :: rest = chores at h
  cases h with
  | begun => cases ph <;> exact absurd hcs (by simp [RunPhase.chores])
  | stamping => cases hcs; exact .returned
  | _ => exact absurd hcs (by simp)

/-- Only at its end does a run let go of the mirror. -/
theorem holds (h : Orderly ph holding rest) (hr : ph ≠ .returned) (ha : ph ≠ .abandoned) :
    holding = true := by
  cases h with
  | begun => rfl
  | expiring => rfl
  | expired => rfl
  | returning => rfl
  | releasing => rfl
  | stamping => exact absurd rfl hr
  | returned => exact absurd rfl hr
  | unlisting => exact absurd rfl ha
  | closing => exact absurd rfl ha
  | abandoned => exact absurd rfl ha

/-- A run that returns lets go of the mirror behind its close. -/
theorem closed_of_released (h : Orderly ph false rest) :
    ph = .abandoned ∨ .unlist ∉ rest ∧ rest.filterMap Chore.entry? = [] := by
  generalize hf : false = holding at h
  cases h with
  | stamping => exact Or.inr ⟨by simp, rfl⟩
  | returned => exact Or.inr ⟨by simp, rfl⟩
  | unlisting => exact Or.inl rfl
  | closing => exact Or.inl rfl
  | abandoned => exact Or.inl rfl
  | _ => exact absurd hf (by simp)

/-- One that has returned and is through has let go of it. -/
theorem let_go (h : Orderly .returned holding []) : holding = false := by
  generalize hp : RunPhase.returned = ph at h
  generalize hcs : ([] : List Chore) = chores at h
  cases h with
  | begun => rw [← hp] at hcs; exact absurd hcs (by simp [RunPhase.chores])
  | returned => rfl
  | expired => exact absurd hp (by simp)
  | abandoned => rfl
  | _ => exact absurd hcs (by simp)

/-- In most phases there is nothing to do. -/
theorem idle (h : Orderly ph holding rest) (hp : ph.chores = []) : holding = true ∧ rest = [] := by
  cases h with
  | begun => exact ⟨rfl, hp⟩
  | _ => exact absurd hp (by simp [RunPhase.chores])

end Orderly

/-! ## A run that closes its entry -/

/-- **A run comes to its close by a step to another phase**, which hands nothing over. -/
theorem Run.Acted.closing_phase {r r' : Run} {hub hub' : Hub} {a : Action} {handed : List Event}
    {decides : List (Event × DeliveryOutcome)} (ha : r.Acted hub a handed decides hub' r')
    (hc : r'.HasClosed) :
    r.HasClosed ∨ handed = [] ∧ r'.phase ≠ r.phase ∧ .unlist ∈ r'.phase.chores := by
  cases ha with
  | announced _ => exact Or.inl (hasClosed_of_open hc rfl (by simp [emit]) rfl)
  | allQueued _ _ => exact Or.inl (hasClosed_of_open hc rfl (by simp) rfl)
  | allSpawned _ _ => exact Or.inl (hasClosed_of_open hc rfl (by simp) rfl)
  | passed _ _ => exact Or.inl (hasClosed_of_open hc rfl (by simp) rfl)
  | expired hp _ => exact Or.inr ⟨rfl, by rw [hp]; simp, by simp [RunPhase.chores]⟩
  | collected _ _ => exact Or.inl (hasClosed_of_open hc rfl (by simp) rfl)
  | submitted _ => exact Or.inl (hasClosed_of_open hc rfl (by simp) rfl)
  | answered _ _ => exact Or.inl (hasClosed_of_open hc rfl (by simp) rfl)
  | stopped _ => exact Or.inl (hasClosed_of_open hc rfl (by simp) rfl)
  | returned hp _ => exact Or.inr ⟨rfl, by rw [hp]; simp, by simp [RunPhase.chores]⟩
  | @worked i w s _ _ =>
      left
      unfold applyStep at hc
      cases he : s.event <;> cases hl : s.leaves <;> rw [he, hl] at hc <;> exact hc
  | _ => exact Or.inl hc

/-- A step that hands an event over leads to no phase with anything to do. -/
theorem Run.Acted.handing {r r' : Run} {hub hub' : Hub} {a : Action} {handed : List Event}
    {decides : List (Event × DeliveryOutcome)} (ha : r.Acted hub a handed decides hub' r')
    (hne : handed ≠ []) : r'.phase = r.phase ∨ r.phase.chores = [] ∧ r'.phase.chores = [] := by
  cases ha with
  | announced hp => exact Or.inr ⟨by rw [hp]; rfl, rfl⟩
  | queued _ _ => exact Or.inl rfl
  | submitted hp => exact Or.inr ⟨by rw [hp]; rfl, rfl⟩
  | worked _ _ => exact Or.inl (Logged.applyStep_fields r hub _ _).2.1
  | _ => exact absurd rfl hne

/-- A run that is over takes no step to another phase. -/
theorem Run.Acted.alive {r r' : Run} {hub hub' : Hub} {a : Action} {handed : List Event}
    {decides : List (Event × DeliveryOutcome)} (ha : r.Acted hub a handed decides hub' r')
    (hp : r'.phase ≠ r.phase) : a = .run ∧ r.phase ≠ .returned ∧ r.phase ≠ .abandoned := by
  have hrun : a = .run := by
    by_contra hne
    exact hp (ha.own hne).2.1
  subst hrun
  refine ⟨rfl, ?_⟩
  cases ha with
  | passed h _ => rcases h with h | h <;> simp [h]
  | announced h => simp [h]
  | queued h _ => simp [h]
  | allQueued h _ => simp [h]
  | spawned h _ => simp [h]
  | allSpawned h _ => simp [h]
  | expired h _ => simp [h]
  | collected h _ => simp [h]
  | submitted h => simp [h]
  | answered h _ => simp [h]
  | stopped h => simp [h]
  | returned h _ => simp [h]

namespace Passage

/-- The entries that the run is about to close. -/
def own (t : Passage) : List Handle :=
  t.chores.filterMap Chore.entry?

/-- An entry is closed, or somebody is about to close it. -/
def Closes (t : Passage) (h : Handle) : Prop :=
  t.hub.registry.Closed h ∨ h ∈ t.closing ++ t.own

/-- **The invariant of a session and its entry.** -/
structure Secured (p : Prepared) (t : Passage) : Prop where
  guarded : t.hub.registry.Guarded p.id p.handle (t.closing ++ t.own)
  orderly : ∀ r, t.stage = .running r → Orderly r.phase t.holding t.chores
  /-- What a run has closed is closed, or about to be, and on no list. -/
  closed : ∀ r, t.stage = .running r → r.HasClosed → .unlist ∉ t.chores →
    t.Closes p.handle ∧ (p.id, p.handle) ∉ t.hub.registry.live

variable {p : Prepared} {t t' : Passage} {r : Run}

theorem secured_of {table : ExtractorTable} {settings : SessionSettings} {id : Option String}
    {files : List Submission} {hub hub' : Hub}
    (ho : Prepared.open? table settings id files hub = (.ok p, hub')) : (of p hub').Secured p := by
  obtain ⟨chosen, hreg, hp⟩ := Course.open?_ok ho
  have hid : p.id = chosen := by rw [hp]
  rw [← hid] at hreg
  exact ⟨Registry.Guarded.of_open hreg, fun r hr => absurd hr (by simp [of]),
    fun r hr => absurd hr (by simp [of])⟩

/-- Moves that leave the registry, the phase and the chores of a run alone. -/
theorem Secured.keep (h : t.Secured p) (hreg : t'.hub.registry = t.hub.registry)
    (hclosing : t'.closing = t.closing) (hchores : t'.chores = t.chores)
    (hholding : t'.holding = t.holding)
    (hrun : ∀ r', t'.stage = .running r' → ∃ r, t.stage = .running r ∧ r'.phase = r.phase
      ∧ (r'.HasClosed → r.HasClosed)) : t'.Secured p := by
  have hown : t'.own = t.own := by
    unfold own
    rw [hchores]
  refine ⟨?_, ?_, ?_⟩
  · rw [hreg, hclosing, hown]
    exact h.guarded
  · intro r' hr'
    obtain ⟨r, hr, hp, _⟩ := hrun r' hr'
    rw [hp, hholding, hchores]
    exact h.orderly r hr
  · intro r' hr' hc hu
    obtain ⟨r, hr, _, hclosed⟩ := hrun r' hr'
    unfold Closes
    rw [hreg, hclosing, hown]
    rw [hchores] at hu
    exact h.closed r hr (hclosed hc) hu

/-- A step that comes to its entry by its chores only. -/
theorem Secured.stepped {r' : Run} {a : Run.Action} {decides : List (Event × DeliveryOutcome)}
    {hub : Hub} (h : t.Secured p) (hs : t.stage = .running r) (hrun : a = .run → t.chores = [])
    (ha : r.Acted t.hub a [] decides hub r') :
    Secured p { t with
      hub := { hub with registry := t.hub.registry }
      stage := .running r'
      chores := if r'.phase = r.phase then t.chores else r'.phase.chores
      decided := t.decided ++ decides } := by
  by_cases hp : r'.phase = r.phase
  · rw [if_pos hp]
    refine h.keep rfl rfl rfl rfl ?_
    intro r₁ hr₁
    cases hr₁
    refine ⟨r, hs, hp, fun hc => ?_⟩
    exact (ha.closing_phase hc).resolve_right fun hnew => hnew.2.1 hp
  · rw [if_neg hp]
    obtain ⟨hact, hret, hab⟩ := ha.alive hp
    have hnil := hrun hact
    have horderly := h.orderly r hs
    rw [hnil] at horderly
    have hown : t.own = [] := by
      unfold own
      rw [hnil]
      rfl
    have hown' : r'.phase.chores.filterMap Chore.entry? = [] := r'.phase.no_entry
    refine ⟨?_, ?_, ?_⟩
    · have hguarded := h.guarded
      rw [hown, ← hown'] at hguarded
      exact hguarded
    · intro r₁ hr₁
      cases hr₁
      show Orderly r'.phase t.holding r'.phase.chores
      rw [horderly.holds hret hab]
      exact .begun r'.phase
    · intro r₁ hr₁ hc hu
      cases hr₁
      rcases ha.closing_phase hc with hbefore | ⟨_, _, hnew⟩
      · have hclosed := h.closed r hs hbefore (by rw [hnil]; simp)
        unfold Closes at hclosed
        rw [hown, ← hown'] at hclosed
        exact hclosed
      · exact absurd hnew hu

/-- An event of the session is offered to its entry. -/
theorem Secured.settled {c : RelayCommand} {e : Event} {o : DeliveryOutcome}
    {registry : Registry} {next : SendLook} {k : Handle} {now deadline : Nat} (h : t.Secured p)
    (hs : t.stage = .running r)
    (hr : next.Returns t.hub.registry k e now deadline o registry) :
    (t.settle r c e o registry).Secured p := by
  have hsame : ∀ r', (t.settle r c e o t.hub.registry).stage = .running r' →
      ∃ r, t.stage = .running r ∧ r'.phase = r.phase ∧ (r'.HasClosed → r.HasClosed) := by
    intro r' hr'
    cases hr'
    exact ⟨r, hs, rfl, id⟩
  cases hr with
  | closed _ _ => exact h.keep rfl rfl rfl rfl hsame
  | late _ _ => exact h.keep rfl rfl rfl rfl hsame
  | offered _ ho =>
      unfold Registry.offer? at ho
      split at ho
      · cases ho
        exact h.keep rfl rfl rfl rfl hsame
      · rename_i f hf
        obtain ⟨⟨o', f'⟩, hof, heq⟩ := Option.map_eq_some_iff.mp ho
        cases heq
        have hkeep := Entry.offer?_keeps hof
        refine ⟨h.guarded.kept hf hkeep, ?_, ?_⟩
        · intro r' hr'
          cases hr'
          exact h.orderly r hs
        · intro r' hr' hc hu
          cases hr'
          obtain ⟨hclosed, hlisted⟩ := h.closed r hs hc hu
          refine ⟨hclosed.imp_left fun ⟨g, hg, hcl⟩ => ?_, hlisted⟩
          obtain ⟨g', hg', hk⟩ := Registry.entry?_kept hf hkeep hg
          exact ⟨g', hg', hk.closed.trans hcl⟩

/-- The run takes its id off the list. -/
theorem Secured.unlisted {rest : List Chore} (h : t.Secured p) (hh : r.handle = p.handle)
    (hs : t.stage = .running r) (hc : t.chores = .unlist :: rest) :
    (t.chore r rest .unlist).Secured p := by
  have horderly := h.orderly r hs
  have hguarded := h.guarded
  unfold own at hguarded
  rw [hc] at horderly hguarded
  have hbegun := hguarded.began (Registry.beginCloseEntry_begun t.hub.registry r.handle)
  have hdone := hguarded.beginCloseEntry
  rw [← hh] at hdone
  have hown : (t.chore r rest .unlist).own
      = (t.hub.registry.beginCloseEntry r.handle).2.1.toList ++ rest.filterMap Chore.entry? := by
    unfold own chore
    dsimp only
    rw [List.filterMap_append]
    cases (t.hub.registry.beginCloseEntry r.handle).2.1 <;> rfl
  refine ⟨?_, ?_, ?_⟩
  · -- the entry that was found goes from the list to those that the run is about to close
    rw [hown]
    refine hbegun.mono fun hm => ?_
    simp only [chore, List.filterMap_cons, Chore.entry?, List.mem_append] at hm ⊢
    tauto
  · intro r₁ hr₁
    cases run_unique hs hr₁
    exact horderly.unlist _
  · intro r₁ _ _ _
    unfold Closes
    rw [hown, ← hh]
    refine ⟨?_, hdone.2⟩
    rcases hdone.1 with hclosed | hself | hpending
    · exact Or.inl hclosed
    · refine Or.inr ?_
      rw [hself]
      simp
    · refine Or.inr ?_
      simp only [chore, List.filterMap_cons, Chore.entry?, List.mem_append] at hpending ⊢
      tauto

/-- The run closes the entry that it took off the list. -/
theorem Secured.cancelled {k : Handle} {rest : List Chore} (h : t.Secured p)
    (hs : t.stage = .running r) (hc : t.chores = .close k :: rest) :
    (t.chore r rest (.close k)).Secured p := by
  have horderly := h.orderly r hs
  have hguarded := h.guarded
  unfold own at hguarded
  rw [hc] at horderly hguarded
  have hpending : ∀ {x : Handle}, x ∈ t.closing ++ (Chore.close k :: rest).filterMap Chore.entry? →
      x = k ∨ x ∈ t.closing ++ rest.filterMap Chore.entry? := by
    intro x hm
    simp only [List.filterMap_cons, Chore.entry?, List.mem_append, List.mem_cons] at hm ⊢
    tauto
  refine ⟨hguarded.cancel hpending, ?_, ?_⟩
  · intro r₁ hr₁
    cases run_unique hs hr₁
    exact horderly.close
  · intro r₁ hr₁ hcl hu
    cases run_unique hs hr₁
    have hrest : .unlist ∉ rest := hu
    obtain ⟨hclosed, hlisted⟩ := h.closed r hs hcl (by
      rw [hc]
      simpa using hrest)
    refine ⟨?_, hlisted⟩
    unfold Closes at hclosed ⊢
    unfold own at hclosed
    rw [hc] at hclosed
    rcases hclosed with hclosed | hm
    · exact Or.inl (hclosed.cancel k)
    · -- it is the entry that is closed now, or somebody's turn is still to come
      rcases hpending hm with rfl | hm
      · obtain ⟨e, he, _⟩ := hguarded.held
        exact Or.inl (Registry.closed_cancel he)
      · exact Or.inr hm

/-- What the run does apart from its entry. -/
theorem Secured.apart {c : Chore} {rest : List Chore} (h : t.Secured p) (hs : t.stage = .running r)
    (hc : t.chores = c :: rest) (hentry : c.entry? = none) (hne : c ≠ .unlist) :
    (r.HasClosed → .unlist ∉ rest → (t.hub.registry.Closed p.handle
        ∨ p.handle ∈ t.closing ++ rest.filterMap Chore.entry?)
        ∧ (p.id, p.handle) ∉ t.hub.registry.live)
      ∧ t.hub.registry.Guarded p.id p.handle (t.closing ++ rest.filterMap Chore.entry?) := by
  have hown : t.own = rest.filterMap Chore.entry? := by
    unfold own
    rw [hc, List.filterMap_cons_none hentry]
  have hguarded := h.guarded
  rw [hown] at hguarded
  refine ⟨fun hcl hrest => ?_, hguarded⟩
  have hclosed := h.closed r hs hcl (by
    rw [hc]
    exact List.mem_cons.not.mpr (not_or.mpr ⟨hne.symm, hrest⟩))
  unfold Closes at hclosed
  rw [hown] at hclosed
  exact hclosed

/-- The run does what it has to do next. -/
theorem Secured.chored {c : Chore} {rest : List Chore} (h : t.Secured p)
    (hh : r.handle = p.handle) (hs : t.stage = .running r) (hc : t.chores = c :: rest) :
    (t.chore r rest c).Secured p := by
  have horderly := h.orderly r hs
  rw [hc] at horderly
  cases c with
  | unlist => exact h.unlisted hh hs hc
  | close k => exact h.cancelled hs hc
  | release =>
      obtain ⟨hclosed, hguarded⟩ := h.apart hs hc rfl (by simp)
      refine ⟨hguarded, ?_, ?_⟩
      · intro r₁ hr₁
        cases run_unique hs hr₁
        exact horderly.release
      · intro r₁ hr₁ hcl hu
        cases run_unique hs hr₁
        exact hclosed hcl hu
  | stamp =>
      obtain ⟨hclosed, hguarded⟩ := h.apart hs hc rfl (by simp)
      refine ⟨hguarded, ?_, ?_⟩
      · intro r₁ hr₁
        cases hr₁
        exact horderly.stamp
      · intro r₁ hr₁ hcl hu
        cases hr₁
        exact hclosed hcl hu

/-- **Preserved by every move.** -/
theorem secured_moved (hst : t.Steady p) (h : t.Secured p) (hm : t.Moved t') : t'.Secured p := by
  have hnone : ∀ {r' : Run}, t.stage = .running r' → ∃ r, t.stage = .running r
      ∧ r'.phase = r.phase ∧ (r'.HasClosed → r.HasClosed) := fun hr => ⟨_, hr, rfl, id⟩
  cases hm with
  | same => exact h
  | arranged _ _ _ =>
      exact ⟨h.guarded, fun r hr => absurd hr (by simp), fun r hr => absurd hr (by simp)⟩
  | started hs =>
      have hr := hst.ready hs
      refine ⟨h.guarded, ?_, ?_⟩
      · intro r₁ hr₁
        cases hr₁
        show Orderly .announcing t.holding t.chores
        rw [hr.holding, hr.chores]
        exact .begun .announcing
      · intro r₁ hr₁ hc
        cases hr₁
        rcases hc with hc | hc | hc <;> exact absurd hc (by simp [Run.start, Run.isOver])
  | copied hs _ _ _ =>
      refine h.keep rfl rfl rfl rfl ?_
      intro r₁ hr₁
      cases hr₁
      exact ⟨_, hs, rfl, id⟩
  | @handed r r' c hub hs hc ha =>
      have hacted := (hst.going hs).acted_of_due hc rfl ha
      have hclosed : r'.HasClosed → r.HasClosed := fun hcl =>
        (hacted.closing_phase hcl).resolve_right fun hnew => absurd hnew.1 (by simp)
      rcases hacted.handing (by simp) with hp | ⟨hidle, hidle'⟩
      · refine h.keep rfl rfl rfl rfl ?_
        intro r₁ hr₁
        cases hr₁
        exact ⟨r, hs, hp, hclosed⟩
      · obtain ⟨hholding, hchores⟩ := (h.orderly r hs).idle hidle
        refine ⟨h.guarded, ?_, ?_⟩
        · intro r₁ hr₁
          cases hr₁
          show Orderly r'.phase t.holding t.chores
          rw [hholding, hchores, ← hidle']
          exact .begun r'.phase
        · intro r₁ hr₁ hcl hu
          cases hr₁
          exact h.closed r hs (hclosed hcl) hu
  | stepped hs hrun _ ha => exact h.stepped hs hrun ha
  | turned _ _ _ => exact h.keep rfl rfl rfl rfl fun _ => hnone
  | settled hs _ _ hr => exact h.settled hs hr
  | chored hs hc => exact h.chored (hst.going hs).inOrder.handle hs hc
  | yielded _ => exact h.keep rfl rfl rfl rfl fun _ => hnone
  | @abandoned r hs hsus hnil =>
      have horderly := h.orderly r hs
      rw [hnil] at horderly
      have hholding : t.holding = true := by
        refine horderly.holds ?_ ?_ <;> intro hp <;> unfold Run.isSuspended at hsus <;>
          rw [hp] at hsus <;> exact absurd hsus (by simp)
      have hown : t.own = RunPhase.abandoned.chores.filterMap Chore.entry? := by
        unfold own
        rw [hnil]
        rfl
      refine ⟨?_, ?_, ?_⟩
      · have hguarded := h.guarded
        rw [hown] at hguarded
        exact hguarded
      · intro r₁ hr₁
        cases hr₁
        show Orderly .abandoned t.holding _
        rw [hholding]
        exact .begun .abandoned
      · intro r₁ _ _ hu
        exact absurd (RunPhase.unlist_of_closing (Or.inr (Or.inr rfl))) hu
  | tended _ _ _ hs =>
      refine h.keep rfl rfl rfl rfl ?_
      intro r₁ hr₁
      cases hr₁
      exact ⟨_, hs, rfl, id⟩
  | @stirred registry closing hstir =>
      refine ⟨h.guarded.stirred hstir, h.orderly, ?_⟩
      intro r hr hc hu
      obtain ⟨hclosed, hlisted⟩ := h.closed r hr hc hu
      exact ⟨h.guarded.closes_stirred hstir hclosed,
        Registry.unlisted_stirred h.guarded.lt hlisted hstir⟩
  | around hreg _ => exact h.keep hreg rfl rfl rfl fun _ => hnone

theorem secured_play {hub : Hub} (h : (of p hub).Secured p) (ms : List Move) :
    ((of p hub).play ms).Secured p :=
  play_induction (Secured p) (fun _ _ hst hm hsec => secured_moved hst hsec hm) (steady_of p hub) h
    ms

end Passage
end Intake
