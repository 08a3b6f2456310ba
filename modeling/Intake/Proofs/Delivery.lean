import Intake.Proofs.History

/-!
# What a sink receives of a session

The events of a session reach its sink one by one through the entry's slot. The relay waits
with each until it is accepted, the entry is closed, the sink is gone or the deadline is over.
The last three do not pass again: an entry stays closed, a reader's place is not given away
twice, and there is one deadline for all events. So the first event that is missed is followed
by no other that is delivered, and what the sink receives has no gap.
-/

namespace Intake

/-- Holds of the outcomes of events that were to be delivered and were not. -/
def DeliveryOutcome.IsMiss (o : DeliveryOutcome) : Prop :=
  o = .timedOut ∨ o = .closed

instance : DecidablePred DeliveryOutcome.IsMiss :=
  fun o => inferInstanceAs (Decidable (o = .timedOut ∨ o = .closed))

/-! ## What keeps events out of an entry -/

/-- Between two stages of an entry, what keeps events out of it stays. -/
structure Entry.Ages (e e' : Entry) : Prop where
  closed : e.closed = true → e'.closed = true
  gone : e.reader = .gone → e'.reader = .gone

namespace Entry

variable {e e' : Entry}

theorem Ages.refl (e : Entry) : e.Ages e := ⟨id, id⟩

theorem deliver?_ages {event : Event} {now deadline : Nat} {o : DeliveryOutcome}
    (h : e.deliver? event now deadline = some (o, e')) : e.Ages e' := by
  by_cases ho : o = .delivered
  · subst ho
    rw [(deliver?_delivered h).2.2.2.2]
    exact ⟨id, id⟩
  · rw [deliver?_refused h ho]
    exact .refl e

theorem receive?_ages {now deadline : Nat} {a : Option Event}
    (h : e.receive? now deadline = some (a, e')) : e.Ages e' := by
  rw [(receive?_some h).2]
  exact ⟨id, id⟩

/-- A place that is given away was free. -/
theorem take?_ages (h : e.take? = some e') : e.Ages e' := by
  obtain ⟨hr, he'⟩ := take?_some h
  rw [he']
  exact ⟨id, fun hg => absurd (hr.symm.trans hg) (by simp)⟩

/-- An event is missed when the entry is closed, its reader gone or the deadline over. -/
theorem deliver?_missed {event : Event} {now deadline : Nat} {o : DeliveryOutcome}
    (h : e.deliver? event now deadline = some (o, e')) (ho : o.IsMiss) :
    e' = e ∧ (e.closed = true ∨ e.reader = .gone ∨ deadline ≤ now) := by
  have hne : o ≠ .delivered := by
    rcases ho with rfl | rfl <;> simp
  refine ⟨deliver?_refused h hne, ?_⟩
  unfold deliver? at h
  split at h
  · rename_i hcl
    exact Or.inl hcl
  · split at h
    · rename_i hdl
      exact Or.inr (Or.inr hdl)
    · exact Or.inr (Or.inl (offer?_refused h hne).2.1)

end Entry

namespace Registry

/-- Nothing is accepted for an entry any more, before a deadline or after it. -/
def Barred (r : Registry) (h : Handle) (now deadline : Nat) : Prop :=
  ∃ e, r.entry? h = some e ∧ (e.closed = true ∨ e.reader = .gone ∨ deadline ≤ now)

variable {r r' : Registry} {h : Handle} {e : Entry} {now deadline : Nat}

/-- An entry ages when it is changed, and no other does. -/
theorem ages_put {k : Handle} {f f' : Entry} (he : r.entry? h = some e)
    (hk : r.entry? k = some f) (hf : f.Ages f') :
    ∃ e', entry? (r.modify k fun _ => f') h = some e' ∧ e.Ages e' := by
  by_cases hkh : k = h
  · subst hkh
    rw [hk] at he
    cases he
    exact ⟨f', entry?_modify_self hk, hf⟩
  · exact ⟨e, (entry?_modify_ne hkh).trans he, .refl e⟩

/-- **Every call lets an entry age.** -/
theorem ages_call (c : Call) (he : r.entry? h = some e) :
    ∃ e', entry? (r.call c) h = some e' ∧ e.Ages e' := by
  have hspared : c.spares h = true → ∃ e', entry? (r.call c) h = some e' ∧ e.Ages e' := by
    intro hc
    rcases entry?_call hc he with hsame | hclosed
    · exact ⟨e, hsame, .refl e⟩
    · exact ⟨e.close, hclosed, fun _ => rfl, id⟩
  cases c with
  | openEntry id => exact hspared rfl
  | lookup id => exact hspared rfl
  | close id => exact hspared rfl
  | closeEntry k => exact hspared rfl
  | take k =>
      dsimp only [call]
      unfold take?
      cases hk : r.entry? k with
      | none => exact ⟨e, he, .refl e⟩
      | some f =>
          rw [Option.bind_some]
          cases ht : f.take? with
          | none => exact ⟨e, he, .refl e⟩
          | some f' => exact ages_put he hk (Entry.take?_ages ht)
  | deliver k event now deadline =>
      dsimp only [call]
      unfold deliver?
      cases hk : r.entry? k with
      | none => exact ⟨e, he, .refl e⟩
      | some f =>
          dsimp only
          cases hd : f.deliver? event now deadline with
          | none => exact ⟨e, he, .refl e⟩
          | some x => exact ages_put he hk (Entry.deliver?_ages hd)
  | receive k now deadline =>
      dsimp only [call]
      unfold receive?
      cases hk : r.entry? k with
      | none => exact ⟨e, he, .refl e⟩
      | some f =>
          dsimp only
          cases hd : f.receive? now deadline with
          | none => exact ⟨e, he, .refl e⟩
          | some x => exact ages_put he hk (Entry.receive?_ages hd)
  | leave k =>
      dsimp only [call]
      unfold leave
      cases hk : r.entry? k with
      | none =>
          rw [modify_of_none hk]
          exact ⟨e, he, .refl e⟩
      | some f =>
          rw [modify_eq_put hk]
          exact ages_put he hk ⟨id, fun _ => rfl⟩

/-- **What is barred stays barred**, whatever is asked of the registry, -/
theorem Barred.calls (hb : r.Barred h now deadline) (cs : List Call) :
    Barred (r.calls cs) h now deadline := by
  induction cs generalizing r with
  | nil => exact hb
  | cons c cs ih =>
      obtain ⟨e, he, hor⟩ := hb
      obtain ⟨e', he', hages⟩ := ages_call c he
      refine ih ⟨e', he', ?_⟩
      rcases hor with hcl | hgone | hdl
      · exact Or.inl (hages.closed hcl)
      · exact Or.inr (Or.inl (hages.gone hgone))
      · exact Or.inr (Or.inr hdl)

/-- when another registry takes its place, -/
theorem Barred.renew (hb : r.Barred h now deadline) :
    Barred (Registry.renew r) h now deadline := by
  obtain ⟨e, he, hor⟩ := hb
  exact ⟨{ e with orphaned := true }, entry?_renew he, hor⟩

/-- and as time passes. -/
theorem Barred.later {later : Nat} (hb : r.Barred h now deadline) (hle : now ≤ later) :
    r.Barred h later deadline := by
  obtain ⟨e, he, hcl | hgone | hdl⟩ := hb
  · exact ⟨e, he, Or.inl hcl⟩
  · exact ⟨e, he, Or.inr (Or.inl hgone)⟩
  · exact ⟨e, he, Or.inr (Or.inr (hdl.trans hle))⟩

/-- **Where events are kept out, none is delivered.** -/
theorem Barred.not_delivered {event : Event} {o : DeliveryOutcome}
    (hb : r.Barred h now deadline) (hd : r.deliver? h event now deadline = some (o, r')) :
    o ≠ .delivered := by
  intro ho
  subst ho
  obtain ⟨e, he, hor⟩ := hb
  unfold deliver? at hd
  rw [he] at hd
  obtain ⟨⟨o', e'⟩, hde, heq⟩ := Option.map_eq_some_iff.mp hd
  cases heq
  obtain ⟨hcl, hnow, hr, _, _⟩ := Entry.deliver?_delivered hde
  rcases hor with hcl' | hgone | hdl
  · rw [hcl] at hcl'
    exact absurd hcl' (by simp)
  · exact absurd (hr.symm.trans hgone) (by simp)
  · omega

/-- Where an event is missed, events are kept out from then on. -/
theorem barred_of_missed {event : Event} {o : DeliveryOutcome} (he : r.entry? h = some e)
    (hd : r.deliver? h event now deadline = some (o, r')) (ho : o.IsMiss) :
    r'.Barred h now deadline := by
  unfold deliver? at hd
  rw [he] at hd
  obtain ⟨⟨o', e'⟩, hde, heq⟩ := Option.map_eq_some_iff.mp hd
  cases heq
  obtain ⟨hsame, hor⟩ := Entry.deliver?_missed hde ho
  subst hsame
  exact ⟨e', entry?_modify_self he, hor⟩

/-- A delivery is a call. -/
theorem call_deliver {event : Event} {o : DeliveryOutcome}
    (hd : r.deliver? h event now deadline = some (o, r')) :
    r.call (.deliver h event now deadline) = r' := by
  dsimp only [call]
  rw [hd]

end Registry

/-- What a reader does to the registry are calls. -/
theorem Outlet.move_calls (o : Outlet) (h : Handle) (now : Nat) (r : Registry) (m : Move) :
    ∃ cs, (o.move h now r m).2 = r.calls cs := by
  cases m with
  | attach =>
      refine ⟨[.take h], ?_⟩
      dsimp only [move, Registry.calls_cons, Registry.calls_nil, Registry.call]
      cases r.take? h <;> rfl
  | receive deadline =>
      dsimp only [move]
      cases hs : o.sink with
      | none => exact ⟨[], rfl⟩
      | some s =>
          dsimp only
          cases hr : s.receive? r now deadline with
          | none => exact ⟨[], rfl⟩
          | some x =>
              obtain ⟨a, s', r'⟩ := x
              obtain ⟨_, ⟨_, _, _, hr'⟩ | ⟨_, hlook, _⟩⟩ := Sink.receive?_some hr
              · exact ⟨[], hr'⟩
              · refine ⟨[.receive s.handle now deadline], ?_⟩
                dsimp only [Registry.calls_cons, Registry.calls_nil, Registry.call]
                rw [hlook]
  | drop =>
      dsimp only [move]
      cases hs : o.sink with
      | none => exact ⟨[], rfl⟩
      | some s => exact ⟨[.closeEntry s.handle, .leave s.handle], rfl⟩

/-! ## What a step asks of the registry -/

theorem Relay.emit_deadline (r : Relay) (e : Event) : (r.emit e).2.deadline = r.deadline := by
  obtain ⟨mirror, hm⟩ := r.reflect_eq e
  unfold emit enqueue
  rw [hm]
  split <;> rfl

theorem Relay.give_deadline (r : Relay) (c : RelayCommand) :
    (r.give c).deadline = r.deadline := by
  unfold give
  split
  · rfl
  · split <;> rfl

theorem Relay.submit_deadline (r : Relay) (e : Event) (ticket : Nat) :
    (r.submit e ticket).deadline = r.deadline := by
  obtain ⟨mirror, hm⟩ := r.reflect_eq e
  unfold submit
  rw [give_deadline, hm]

/-- The calls on the registry by which a step may close its entry. -/
theorem closing_spares (h k : Handle) : ∀ c ∈ [Registry.Call.closeEntry h], c.spares k = true := by
  intro c hc
  rw [List.mem_singleton.mp hc]
  rfl

namespace Run

/-- What a step decides, and what it asks of the registry for it. A step that decides nothing
asks at most that the entry be closed. -/
inductive Decided (r : Run) (hub : Hub) (registry : Registry) :
    List (Event × DeliveryOutcome) → Prop
  | nothing (cs : List Registry.Call) : (∀ c ∈ cs, ∀ h, c.spares h = true) →
      registry = hub.registry.calls cs → r.Decided hub registry []
  | hidden (e : Event) : registry = hub.registry → r.Decided hub registry [(e, .suppressed)]
  | shown {e : Event} {o : DeliveryOutcome} :
      hub.registry.deliver? r.relay.handle e hub.now r.relay.deadline = some (o, registry) →
      r.Decided hub registry [(e, o)]

/-- The clock and the deadline are not touched by a step. -/
theorem Acted.terms {r r' : Run} {hub hub' : Hub} {a : Action} {handed : List Event}
    {decides : List (Event × DeliveryOutcome)} (ha : r.Acted hub a handed decides hub' r') :
    hub'.now = hub.now ∧ r'.relay.deadline = r.relay.deadline := by
  cases ha with
  | announced _ => exact ⟨rfl, Relay.emit_deadline _ _⟩
  | queued _ _ => exact ⟨rfl, Relay.emit_deadline _ _⟩
  | submitted _ => exact ⟨rfl, Relay.submit_deadline _ _ _⟩
  | stopped _ => exact ⟨rfl, Relay.give_deadline _ _⟩
  | begun _ _ hp _ _ => exact ⟨rfl, (pop?_terms hp).2⟩
  | suppressed _ _ hp _ _ => exact ⟨rfl, (pop?_terms hp).2⟩
  | halted _ _ hp _ => exact ⟨rfl, (pop?_terms hp).2⟩
  | @worked i w s _ _ =>
      refine ⟨rfl, ?_⟩
      unfold applyStep
      cases s.event with
      | none => cases s.leaves <;> rfl
      | some e =>
          have hemit := Relay.emit_deadline r.relay e
          cases s.leaves <;> exact hemit
  | _ => exact ⟨rfl, rfl⟩

theorem Acted.decided_of {r r' : Run} {hub hub' : Hub} {a : Action} {handed : List Event}
    {decides : List (Event × DeliveryOutcome)} (ha : r.Acted hub a handed decides hub' r') :
    r.Decided hub hub'.registry decides := by
  have hnone : r.Decided hub hub.registry [] :=
    .nothing [] (fun c hc => absurd hc (by simp)) rfl
  have hclose : r.Decided hub (hub.registry.closeEntry r.handle).2 [] :=
    .nothing [.closeEntry r.handle] (fun c hc k => closing_spares _ k c hc) rfl
  cases ha with
  | expired _ _ => exact hclose
  | returned _ _ => exact hclose
  | decided _ _ _ hd => exact .shown hd
  | suppressed _ _ _ _ _ => exact .hidden _ rfl
  | _ => exact hnone

end Run

/-! ## The invariant -/

namespace Course

/-- The events that were delivered. -/
def delivered (decided : List (Event × DeliveryOutcome)) : List Event :=
  (decided.filter (·.2 = .delivered)).map Prod.fst

theorem delivered_append (decided : List (Event × DeliveryOutcome)) (e : Event)
    (o : DeliveryOutcome) :
    delivered (decided ++ [(e, o)]) = delivered decided ++ Entry.gain e o := by
  unfold delivered Entry.gain
  rw [List.filter_append, List.map_append]
  by_cases ho : o = .delivered <;> simp [ho]

/-- **The invariant of a course and its entry.** -/
structure Delivers (p : Prepared) (c : Course) : Prop where
  handle : c.handle = p.handle
  feeds : c.hub.registry.Feeds c.handle (delivered c.decided) c.outlet
  /-- After a miss events are kept out. -/
  barred : ∀ r, c.stage = .running r → (∃ d ∈ c.decided, d.2.IsMiss) →
    c.hub.registry.Barred c.handle c.hub.now r.relay.deadline
  /-- After a miss nothing was delivered. -/
  monotone : c.decided.Pairwise fun a b => a.2.IsMiss → b.2 ≠ .delivered

variable {p : Prepared} {c c' : Course}

/-- What is asked of the registry leaves the entry to its relay and its reader. -/
theorem feeds_calls {r : Registry} {h : Handle} {accepted : List Event} {o : Outlet}
    (hf : r.Feeds h accepted o) (cs : List Registry.Call)
    (hc : ∀ c ∈ cs, c.spares h = true) : Registry.Feeds (r.calls cs) h accepted o := by
  induction cs generalizing r with
  | nil => exact hf
  | cons c cs ih =>
      exact ih (Registry.feeds_call hf (hc c List.mem_cons_self))
        fun d hd => hc d (List.mem_cons_of_mem _ hd)

/-- A step of the session. -/
theorem delivers_acted {r r' : Run} {a : Run.Action} {handed : List Event}
    {decides : List (Event × DeliveryOutcome)} {hub : Hub} (h : c.Delivers p)
    (hb : Booked p r c.log c.decided) (hs : c.stage = .running r)
    (ha : r.Acted c.hub a handed decides hub r') :
    Delivers p { c with
      hub
      stage := .running r'
      log := c.log ++ handed
      decided := c.decided ++ decides } := by
  obtain ⟨hnow, hdl⟩ := ha.terms
  have hrel : r.relay.handle = c.handle := hb.handle.trans h.handle.symm
  have hdec := ha.decided_of
  generalize hreg : hub.registry = registry at hdec
  cases hdec with
  | nothing cs hcs heq =>
      refine ⟨h.handle, ?_, ?_, ?_⟩
      · show hub.registry.Feeds c.handle (delivered (c.decided ++ [])) c.outlet
        rw [List.append_nil, hreg, heq]
        exact feeds_calls h.feeds cs fun d hd => hcs d hd _
      · intro r₁ hs₁ hmiss
        cases hs₁
        show hub.registry.Barred c.handle hub.now r'.relay.deadline
        rw [hreg, heq, hnow, hdl]
        exact (h.barred r hs (by rw [← List.append_nil c.decided]; exact hmiss)).calls cs
      · show (c.decided ++ []).Pairwise _
        rw [List.append_nil]
        exact h.monotone
  | hidden e heq =>
      refine ⟨h.handle, ?_, ?_, ?_⟩
      · -- nothing that is not shown is delivered
        show hub.registry.Feeds c.handle (delivered (c.decided ++ [_])) c.outlet
        rw [delivered_append, hreg, heq]
        unfold Entry.gain
        rw [if_neg (by simp), List.append_nil]
        exact h.feeds
      · intro r₁ hs₁ hmiss
        cases hs₁
        show hub.registry.Barred c.handle hub.now r'.relay.deadline
        rw [hreg, heq, hnow, hdl]
        obtain ⟨d, hd, hm⟩ := hmiss
        rcases List.mem_append.mp hd with hold | hnew
        · exact h.barred r hs ⟨d, hold, hm⟩
        · rw [List.mem_singleton.mp hnew] at hm
          rcases hm with hm | hm <;> exact absurd hm (by simp)
      · refine List.pairwise_append.mpr ⟨h.monotone, List.pairwise_singleton _ _, ?_⟩
        intro a _ b hbm _
        rw [List.mem_singleton.mp hbm]
        simp
  | @shown e o hd =>
      rw [hrel] at hd
      refine ⟨h.handle, ?_, ?_, ?_⟩
      · show hub.registry.Feeds c.handle (delivered (c.decided ++ [_])) c.outlet
        rw [delivered_append, hreg]
        exact Registry.feeds_deliver h.feeds hd
      · intro r₁ hs₁ hmiss
        cases hs₁
        show hub.registry.Barred c.handle hub.now r'.relay.deadline
        rw [hreg, hnow, hdl]
        obtain ⟨d, hdm, hm⟩ := hmiss
        rcases List.mem_append.mp hdm with hold | hnew
        · -- the miss is an old one, and a delivery is a call like any other
          rw [← Registry.call_deliver hd]
          exact (h.barred r hs ⟨d, hold, hm⟩).calls
            [.deliver c.handle e c.hub.now r.relay.deadline]
        · -- what makes this event a miss is what bars the entry
          rw [List.mem_singleton.mp hnew] at hm
          obtain ⟨f, hf, _⟩ := h.feeds
          exact Registry.barred_of_missed hf hd hm
      · refine List.pairwise_append.mpr ⟨h.monotone, List.pairwise_singleton _ _, ?_⟩
        intro a ham b hbm hmiss
        -- `a` was missed before, so the entry was barred when `b` came
        rw [List.mem_singleton.mp hbm]
        exact (h.barred r hs ⟨a, ham, hmiss⟩).not_delivered hd

theorem abandon_registry (r : Run) (hub : Hub) :
    (r.abandon hub).1.now = hub.now
      ∧ (r.abandon hub).2.relay.deadline = r.relay.deadline
      ∧ ∃ cs, (∀ c ∈ cs, ∀ h, Registry.Call.spares h c = true)
        ∧ (r.abandon hub).1.registry = hub.registry.calls cs := by
  unfold Run.abandon
  split
  · exact ⟨rfl, rfl, [.closeEntry r.handle], fun c hc k => closing_spares _ k c hc, rfl⟩
  · exact ⟨rfl, rfl, [], fun c hc => absurd hc (by simp), rfl⟩

/-- **Preserved by every move.** -/
theorem delivers_moved (h : c.Delivers p) (hb : c.Books p) (hm : c.Moved c') :
    c'.Delivers p := by
  cases hm with
  | same => exact h
  | arranged mirror table hs =>
      exact ⟨h.handle, h.feeds, fun r hr => absurd hr (by simp), h.monotone⟩
  | started hs =>
      refine ⟨h.handle, h.feeds, ?_, h.monotone⟩
      rintro r hr ⟨d, hd, _⟩
      have hnone := (hb.prepared hs).2.2.2.2
      rw [hnone] at hd
      exact absurd hd (by simp)
  | acted hs ha => exact delivers_acted h (hb.running hs) hs ha
  | @abandoned r hs =>
      obtain ⟨hnow, hdl, cs, hcs, hreg⟩ := abandon_registry r c.hub
      refine ⟨h.handle, ?_, ?_, h.monotone⟩
      · show (r.abandon c.hub).1.registry.Feeds c.handle (delivered c.decided) c.outlet
        rw [hreg]
        exact feeds_calls h.feeds cs fun d hd => hcs d hd _
      · intro r₁ hr hmiss
        cases hr
        show (r.abandon c.hub).1.registry.Barred c.handle (r.abandon c.hub).1.now
          (r.abandon c.hub).2.relay.deadline
        rw [hreg, hnow, hdl]
        exact (h.barred r hs hmiss).calls cs
  | @tended r mirror table hs =>
      refine ⟨h.handle, h.feeds, ?_, h.monotone⟩
      intro r₁ hr hmiss
      cases hr
      exact h.barred r hs hmiss
  | read m =>
      refine ⟨h.handle, Registry.feeds_move h.feeds, ?_, h.monotone⟩
      intro r hr hmiss
      obtain ⟨cs, hcs⟩ := c.outlet.move_calls c.handle c.hub.now c.hub.registry m
      show Registry.Barred (c.outlet.move c.handle c.hub.now c.hub.registry m).2 c.handle
        c.hub.now r.relay.deadline
      rw [hcs]
      exact (h.barred r hr hmiss).calls cs
  | @asked call hc =>
      refine ⟨h.handle, Registry.feeds_call h.feeds hc, ?_, h.monotone⟩
      intro r hr hmiss
      exact (h.barred r hr hmiss).calls [call]
  | renewed =>
      refine ⟨h.handle, Registry.feeds_renew h.feeds, ?_, h.monotone⟩
      intro r hr hmiss
      exact (h.barred r hr hmiss).renew
  | @around hub hreg hnow =>
      refine ⟨h.handle, ?_, ?_, h.monotone⟩
      · show hub.registry.Feeds c.handle (delivered c.decided) c.outlet
        rw [hreg]
        exact h.feeds
      · intro r hr hmiss
        show hub.registry.Barred c.handle hub.now r.relay.deadline
        rw [hreg]
        exact (h.barred r hr hmiss).later hnow

/-- A session that was opened has an entry in the registry, and what it was opened with. -/
theorem open?_ok {table : ExtractorTable} {settings : SessionSettings}
    {id : Option String} {files : List Submission} {hub hub' : Hub}
    (ho : Prepared.open? table settings id files hub = (.ok p, hub')) :
    ∃ chosen, hub.registry.open? chosen = some (p.handle, hub'.registry)
      ∧ p = { id := chosen, handle := p.handle, files, table, settings } := by
  unfold Prepared.open? at ho
  dsimp only at ho
  split at ho
  · exact absurd (congrArg Prod.fst ho) (by simp)
  · split at ho
    · exact absurd (congrArg Prod.fst ho) (by simp)
    · rename_i h registry hreg
      cases ho
      exact ⟨_, hreg, rfl⟩

/-- It has the entry to itself. -/
theorem delivers_of {table : ExtractorTable} {settings : SessionSettings} {id : Option String}
    {files : List Submission} {hub hub' : Hub}
    (ho : Prepared.open? table settings id files hub = (.ok p, hub')) :
    (of p hub').Delivers p := by
  obtain ⟨chosen, hreg, _⟩ := open?_ok ho
  exact ⟨rfl, Registry.feeds_open hreg, fun r hr => absurd hr (by simp [of]), List.Pairwise.nil⟩

theorem delivers_play {hub : Hub} (h : (of p hub).Delivers p) (ms : List Move) :
    ((of p hub).play ms).Delivers p :=
  play_booked (Delivers p) (fun _ _ _ hb hm hd => delivers_moved hd hb hm) h ms

/-! ## What follows -/

/-- **The delivered events have no gap**, if nothing was delivered after a miss. -/
theorem delivered_initial {admits : Event → Bool} {decided : List (Event × DeliveryOutcome)}
    (hsup : ∀ d ∈ decided, d.2 = .suppressed ↔ admits d.1 = false)
    (hmono : decided.Pairwise fun a b => a.2.IsMiss → b.2 ≠ .delivered) :
    delivered decided <+: (decided.map Prod.fst).filter admits := by
  induction decided with
  | nil => exact List.prefix_rfl
  | cons d ds ih =>
      obtain ⟨e, o⟩ := d
      rw [List.pairwise_cons] at hmono
      have hrest := ih (fun d hd => hsup d (List.mem_cons_of_mem _ hd)) hmono.2
      have hhead := hsup (e, o) List.mem_cons_self
      -- the rest is empty if this event was missed
      have hmiss : o.IsMiss → delivered ((e, o) :: ds) = [] := by
        intro hm
        unfold delivered
        rw [List.map_eq_nil_iff, List.filter_eq_nil_iff]
        intro d hd
        rcases List.mem_cons.mp hd with heq | hd
        · rw [heq]
          rcases hm with rfl | rfl <;> simp
        · simpa using hmono.1 d hd hm
      rw [List.map_cons]
      cases o with
      | delivered =>
          have hadm : admits e = true := by
            cases ha : admits e with
            | true => rfl
            | false => exact absurd (hhead.mpr ha) (by simp)
          rw [List.filter_cons_of_pos hadm]
          exact (List.prefix_cons_inj e).mpr hrest
      | suppressed =>
          rw [List.filter_cons_of_neg (by rw [hhead.mp rfl]; simp)]
          exact hrest
      | timedOut =>
          rw [hmiss (Or.inl rfl)]
          exact List.nil_prefix
      | closed =>
          rw [hmiss (Or.inr rfl)]
          exact List.nil_prefix

/-- A relay counts as dropped what was missed. -/
theorem dropped_eq (decided : List (Event × DeliveryOutcome)) (s : RelayStats) :
    (decided.foldl (fun s d => s.count d.2) s).dropped
      = s.dropped + decided.countP fun d => d.2.IsMiss := by
  induction decided generalizing s with
  | nil => rfl
  | cons d ds ih =>
      obtain ⟨e, o⟩ := d
      rw [List.foldl_cons, ih, List.countP_cons]
      cases o <;> simp [RelayStats.count, DeliveryOutcome.IsMiss] <;> omega

/-- The events of a session that are to be shown. -/
def shown (p : Prepared) (e : Event) : Bool :=
  (ProgressFilter.ofStreamProgress p.settings.streamProgress).admits e

theorem shown_completed (p : Prepared) (guid : String) :
    shown p (Event.ofSession guid .completed) = true := by
  unfold shown ProgressFilter.ofStreamProgress
  split <;> rfl

/-- **What a sink receives of a session, and what the session says of it.** -/
structure Gapless (p : Prepared) (c : Course) : Prop where
  /-- The sink has received the first of the events that are to be shown, in order. -/
  received : c.outlet.received <+: c.log.filter (shown p)
  /-- The relay decides on the events in the order of the log. -/
  decided : c.decided.map Prod.fst <+: c.log
  /-- It suppresses those that are not to be shown, and no others. -/
  suppressed : ∀ d ∈ c.decided, d.2 = .suppressed ↔ shown p d.1 = false
  /-- Of the others, none is delivered after one that was not. -/
  monotone : (c.decided.filter fun d => shown p d.1).Pairwise
    fun a b => b.2 = .delivered → a.2 = .delivered
  /-- When the run has returned, its report says whether the last event was delivered, which
  is so exactly if none was missed. -/
  returned : ∀ r, c.stage = .running r → r.phase = .returned →
    c.decided.getLast? = some (Event.ofSession p.id .completed, r.report.completedDelivery)
      ∧ r.report.relay.dropped = c.decided.countP (fun d => d.2.IsMiss)
      ∧ (r.report.completedDelivery = .delivered ↔ r.report.relay.dropped = 0)
      ∧ r.report.completedDelivery ≠ .suppressed

theorem suppressed_iff (hb : c.Books p) : ∀ d ∈ c.decided, d.2 = .suppressed
    ↔ shown p d.1 = false := by
  intro d hd
  cases hs : c.stage with
  | prepared q =>
      rw [(hb.prepared hs).2.2.2.2] at hd
      exact absurd hd (by simp)
  | running r =>
      have hbooked := hb.running hs
      obtain ⟨_, _, hacc, _, _⟩ := hbooked.accounts
      unfold shown
      rw [← hbooked.filter]
      exact hacc.suppressed d hd

theorem decided_prefix (hb : c.Books p) : c.decided.map Prod.fst <+: c.log := by
  cases hs : c.stage with
  | prepared q =>
      rw [(hb.prepared hs).2.2.2.2]
      exact List.nil_prefix
  | running r =>
      exact (hb.running hs).decided_initial

/-- When the run has returned, everything is decided, the last event last. -/
theorem decided_returned {r : Run} {log : List Event} {decided : List (Event × DeliveryOutcome)}
    (hl : Logged p r log) (hb : Booked p r log decided) (hp : r.phase = .returned) :
    ∃ front, decided = front ++ [(Event.ofSession p.id .completed, r.outcome)] := by
  have hrank : r.phase.rank = 9 := by rw [hp]; rfl
  have hlog := hb.decided_returned hp
  obtain ⟨front, hfront, hprogress⟩ := wholeLog_last (hl.whole (by omega)).2
  obtain ⟨before, last, hsplit, hbefore, hlast⟩ :=
    List.map_eq_append_iff.mp (hlog.trans hfront)
  obtain ⟨d, hd, hmap⟩ := List.map_eq_singleton_iff.mp hlast
  refine ⟨before, ?_⟩
  -- the outcome is that of a terminal event, and there is only one
  obtain ⟨t, ht, hterm, hout⟩ := hb.outcome (by omega)
  rw [hsplit] at ht ⊢
  rw [hd] at ht ⊢
  rcases List.mem_append.mp ht with hold | hnew
  · have hno := (hprogress t.1 (by rw [← hbefore]; exact List.mem_map_of_mem hold)).2
    rw [hterm] at hno
    exact absurd hno (by simp)
  · rw [List.mem_singleton.mp hnew] at hout
    rw [← hmap, ← hout]

/-- The report at the end: the last event was delivered exactly if none was missed. -/
theorem delivered_last {front : List (Event × DeliveryOutcome)} {e : Event}
    {o : DeliveryOutcome} (hd : c.decided = front ++ [(e, o)]) (ho : o ≠ .suppressed)
    (hmono : c.decided.Pairwise fun a b => a.2.IsMiss → b.2 ≠ .delivered) :
    o = .delivered ↔ (c.decided.countP fun d => d.2.IsMiss) = 0 := by
  rw [List.countP_eq_zero]
  constructor
  · intro hdel d hm
    rw [hd] at hm hmono
    rcases List.mem_append.mp hm with hold | hnew
    · have hno := (List.pairwise_append.mp hmono).2.2 d hold (e, o) (List.mem_singleton.mpr rfl)
      simpa using fun hmiss => hno hmiss hdel
    · rw [List.mem_singleton.mp hnew, hdel]
      simp [DeliveryOutcome.IsMiss]
  · intro hall
    have hmem : (e, o) ∈ c.decided := by
      rw [hd]
      exact List.mem_append_right _ (List.mem_singleton.mpr rfl)
    have hlast := hall (e, o) hmem
    cases o with
    | delivered => rfl
    | suppressed => exact absurd rfl ho
    | timedOut => exact absurd (by simp [DeliveryOutcome.IsMiss]) hlast
    | closed => exact absurd (by simp [DeliveryOutcome.IsMiss]) hlast

theorem report_dropped {r : Run} (hb : Booked p r c.log c.decided) (hp : r.phase = .returned) :
    r.report.relay.dropped = c.decided.countP fun d => d.2.IsMiss := by
  show r.relay.finalStats.dropped = _
  rw [hb.finalStats hp]
  exact (dropped_eq c.decided {}).trans (Nat.zero_add _)

/-- **A sink receives a session without gaps.** Whenever it comes, however it reads and
whoever closes the entry: what it has received are the first of the events that are to be
shown, and the report says in the end whether it was all of them. -/
theorem session_gapless {table : ExtractorTable} {settings : SessionSettings}
    {id : Option String} {files : List Submission} {hub hub' : Hub}
    (ho : Prepared.open? table settings id files hub = (.ok p, hub')) (ms : List Move) :
    Gapless p ((of p hub').play ms) := by
  obtain ⟨hl, hb⟩ := books_play p hub' ms
  have hd := delivers_play (delivers_of ho) ms
  generalize (of p hub').play ms = c at hl hb hd
  have hsup := suppressed_iff hb
  have hdec := decided_prefix hb
  refine ⟨?_, hdec, hsup, ?_, ?_⟩
  · obtain ⟨e, _, hf⟩ := hd.feeds
    exact hf.received.trans ((delivered_initial hsup hd.monotone).trans (hdec.filter _))
  · refine (hd.monotone.filter _).imp_of_mem ?_
    intro a b ha _ hmiss hdel
    obtain ⟨ham, hshown⟩ := List.mem_filter.mp ha
    cases hao : a.2 with
    | delivered => rfl
    | suppressed =>
        rw [(hsup a ham).mp hao] at hshown
        exact absurd hshown (by simp)
    | timedOut => exact absurd hdel (hmiss (Or.inl hao))
    | closed => exact absurd hdel (hmiss (Or.inr hao))
  · intro r hs hp
    have hbooked := hb.running hs
    obtain ⟨front, hfront⟩ := decided_returned (hl.running hs) hbooked hp
    have hshown : r.report.completedDelivery ≠ .suppressed := by
      intro hno
      have hlast := (hsup (Event.ofSession p.id .completed, r.outcome)
        (by rw [hfront]; exact List.mem_append_right _ (List.mem_singleton.mpr rfl))).mp hno
      rw [shown_completed] at hlast
      exact absurd hlast (by simp)
    have hdropped := report_dropped hbooked hp
    refine ⟨?_, hdropped, ?_, hshown⟩
    · rw [hfront, List.getLast?_append]
      rfl
    · rw [hdropped]
      exact delivered_last hfront hshown hd.monotone

/-- A session of one file that is not there, whose sink comes when everything was handed
over. It receives all six events, and the session says so. -/
theorem session_gapless_late_sink :
    let f : Submission := { fileName := "a.txt", declared := none, size := 0, spool := 0 }
    let p : Prepared := {
      id := "s"
      handle := 0
      files := [f]
      table := {}
      settings := {} }
    let hub : Hub := { registry := ({} : Registry).opened "s", serial := 1 }
    let c := (of p hub).play (List.flatten [[.start], List.replicate 5 (.act .run),
      List.replicate 5 (.act (.worker 0)), List.replicate 3 (.act .run), [.reader .attach],
      (List.replicate 6 [.act .relay, .act .relay, .reader (.receive 5)]).flatten,
      [.act .run, .act .run, .act .relay, .act .run]])
    Prepared.open? {} {} (some "s") [f] {} = (.ok p, hub)
      ∧ c.outlet.received = c.log ∧ c.log.length = 6
      ∧ (match c.stage with
        | .running r => some (r.phase, r.report.completedDelivery)
        | .prepared _ => none) = some (.returned, .delivered)
      ∧ Gapless p c := by
  intro f p hub c
  have ho : Prepared.open? {} {} (some "s") [f] {} = (.ok p, hub) := rfl
  exact ⟨ho, by decide, by decide, by decide, session_gapless ho _⟩

end Course
end Intake
