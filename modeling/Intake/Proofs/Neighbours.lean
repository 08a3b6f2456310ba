import Intake.Proofs.Closure

/-!
# Sessions and their neighbours

Sessions that share a registry refer to their entries by handles. What a session does to the
registry, and what a sink does, is asked through its own handle, and what is asked through one
handle concerns no entry but the one of that handle (`Registry.same_calls`). So what the others
do meanwhile is a piece of a session's course in which it is not asked anything of its entry but
to be closed (`Course.Opened.beside`).
-/

namespace Intake

/-! ## Calls through one handle -/

namespace Registry

/-- Holds of the calls that are made through a handle. -/
def Call.through (h : Handle) : Call → Bool
  | .closeEntry k => k == h
  | .take k => k == h
  | .deliver k _ _ _ => k == h
  | .receive k _ _ => k == h
  | .leave k => k == h
  | _ => false

/-- Holds of the calls that close an entry, by its id or through a handle. -/
def Call.isClosing : Call → Bool
  | .close _ | .closeEntry _ => true
  | _ => false

variable {r r' : Registry} {h k : Handle} {c : Call}

theorem Call.spares_of_through (hc : c.through h = true) (hk : k ≠ h) : c.spares k = true := by
  cases c with
  | openEntry id => rfl
  | lookup id => rfl
  | close id => rfl
  | closeEntry j => rfl
  | _ =>
      have hj := beq_iff_eq.mp hc
      subst hj
      exact bne_iff_ne.mpr (Ne.symm hk)

theorem Call.spares_of_isClosing (hc : c.isClosing = true) (h : Handle) : c.spares h = true := by
  cases c with
  | close id => rfl
  | closeEntry k => rfl
  | _ => exact absurd hc (by simp [isClosing])

/-- How an entry is, and how it is listed, is the same in two registries. -/
structure Same (r r' : Registry) (k : Handle) : Prop where
  entry : r'.entry? k = r.entry? k
  listed : ∀ id, (id, k) ∈ r'.live ↔ (id, k) ∈ r.live

theorem Same.refl (r : Registry) (k : Handle) : r.Same r k := ⟨rfl, fun _ => Iff.rfl⟩

theorem Same.trans {r'' : Registry} (h : r.Same r' k) (h' : r'.Same r'' k) : r.Same r'' k :=
  ⟨h'.entry.trans h.entry, fun id => (h'.listed id).trans (h.listed id)⟩

theorem same_modify {f : Entry → Entry} (hk : k ≠ h) : r.Same (r.modify h f) k :=
  ⟨entry?_modify_ne (Ne.symm hk), fun _ => Iff.rfl⟩

/-- To close through a handle, even one of long ago, closes the entry of that handle. -/
theorem same_closeEntry (hs : r.Sound) (hk : k ≠ h) : r.Same (r.closeEntry h).2 k := by
  obtain ⟨hentry, hlisted⟩ := closeEntry_elsewhere hs (Ne.symm hk)
  exact ⟨hentry, hlisted⟩

/-- **What is asked through a handle concerns the entry of that handle and no other.** -/
theorem same_call (hs : r.Sound) (hc : c.through h = true) (hk : k ≠ h) :
    r.Same (r.call c) k := by
  cases c with
  -- these name an id, and no handle
  | openEntry id => exact absurd hc (by simp [Call.through])
  | lookup id => exact absurd hc (by simp [Call.through])
  | close id => exact absurd hc (by simp [Call.through])
  | closeEntry j =>
      have hj := beq_iff_eq.mp hc
      subst hj
      exact same_closeEntry hs hk
  | take j =>
      have hj := beq_iff_eq.mp hc
      subst hj
      dsimp only [call]
      unfold take?
      split
      · exact same_modify hk
      · exact .refl r k
  | deliver j event now deadline =>
      have hj := beq_iff_eq.mp hc
      subst hj
      dsimp only [call]
      unfold deliver?
      cases r.entry? j with
      | none => exact .refl r k
      | some e =>
          dsimp only
          cases e.deliver? event now deadline with
          | none => exact .refl r k
          | some x => exact same_modify hk
  | receive j now deadline =>
      have hj := beq_iff_eq.mp hc
      subst hj
      dsimp only [call]
      unfold receive?
      cases r.entry? j with
      | none => exact .refl r k
      | some e =>
          dsimp only
          cases e.receive? now deadline with
          | none => exact .refl r k
          | some x => exact same_modify hk
  | leave j =>
      have hj := beq_iff_eq.mp hc
      subst hj
      exact same_modify hk

theorem same_calls {cs : List Call} (hs : r.Sound) (hcs : ∀ c ∈ cs, c.through h = true)
    (hk : k ≠ h) : r.Same (r.calls cs) k := by
  induction cs generalizing r with
  | nil => exact .refl r k
  | cons c cs ih =>
      refine (same_call hs (hcs c List.mem_cons_self) hk).trans
        (ih (sound_step hs (call_became r c)) fun d hd => hcs d (List.mem_cons_of_mem _ hd))

theorem opens_of_through (r : Registry) (hc : c.through h = true) : r.opens c = none := by
  cases c with
  | openEntry id => exact absurd hc (by simp [Call.through])
  | _ => rfl

theorem opens_of_isClosing (r : Registry) (hc : c.isClosing = true) : r.opens c = none := by
  cases c with
  | openEntry id => exact absurd hc (by simp [Call.isClosing])
  | _ => rfl

/-- The table grows by the calls that open entries, and by no others. -/
theorem length_call (r : Registry) (hc : r.opens c = none) :
    (r.call c).entries.length = r.entries.length := by
  have hb := call_became r c
  rw [hc] at hb
  generalize r.closes c = cl at hb
  generalize r.call c = r' at hb ⊢
  cases hb with
  | same => rfl
  | removed id k _ => exact List.length_modify _ _ _
  | kept _ _ => exact List.length_modify _ _ _
  | orphanClosed _ _ => exact List.length_modify _ _ _

theorem length_calls {cs : List Call} (hcs : ∀ c ∈ cs, ∀ r : Registry, r.opens c = none) :
    (r.calls cs).entries.length = r.entries.length := by
  induction cs generalizing r with
  | nil => rfl
  | cons c cs ih =>
      rw [calls_cons, ih fun d hd => hcs d (List.mem_cons_of_mem _ hd)]
      exact length_call r (hcs c List.mem_cons_self r)

/-- An entry is of the same session for good. -/
theorem session_call {e : Entry} (c : Call) (he : r.entry? h = some e) :
    ∃ e', entry? (r.call c) h = some e' ∧ e'.session = e.session := by
  have hclose : ∀ k, ∃ e', entry? (r.modify k Entry.close) h = some e'
      ∧ e'.session = e.session := by
    intro k
    rcases entry?_modify_close he with hm | hm <;> exact ⟨_, hm, rfl⟩
  have hb := call_became r c
  generalize r.opens c = o at hb
  generalize r.closes c = cl at hb
  generalize r.call c = r' at hb ⊢
  cases hb with
  | same => exact ⟨e, he, rfl⟩
  | opened id _ => exact ⟨e, entry?_opened_old he, rfl⟩
  | removed id k _ => exact hclose k
  | kept hf hkeep =>
      obtain ⟨e', he', hk⟩ := entry?_kept hf hkeep he
      exact ⟨e', he', hk.session⟩
  | orphanClosed _ _ => exact hclose _

theorem session_calls {e : Entry} (cs : List Call) (he : r.entry? h = some e) :
    ∃ e', entry? (r.calls cs) h = some e' ∧ e'.session = e.session := by
  induction cs generalizing r e with
  | nil => exact ⟨e, he, rfl⟩
  | cons c cs ih =>
      obtain ⟨e₁, he₁, h₁⟩ := session_call c he
      obtain ⟨e₂, he₂, h₂⟩ := ih he₁
      exact ⟨e₂, he₂, h₂.trans h₁⟩

end Registry

/-! ## Opening a session -/

namespace Prepared

/-- Opening a session takes no time, and one that is refused leaves the registry alone. -/
theorem open?_hub {table : ExtractorTable} {settings : SessionSettings} {id : Option String}
    {files : List Submission} {hub hub' : Hub} {x : Except SessionError Prepared}
    (ho : Prepared.open? table settings id files hub = (x, hub')) :
    hub'.now = hub.now ∧ ((∃ e, x = .error e) → hub'.registry = hub.registry) := by
  unfold Prepared.open? at ho
  dsimp only at ho
  split at ho
  · cases ho
    exact ⟨rfl, fun _ => rfl⟩
  · split at ho
    · cases ho
      exact ⟨rfl, fun _ => rfl⟩
    · cases ho
      exact ⟨rfl, fun ⟨e, he⟩ => absurd he (by simp)⟩

/-- The entry that is made when a session is opened. -/
theorem open?_entry {table : ExtractorTable} {settings : SessionSettings} {id : Option String}
    {files : List Submission} {hub hub' : Hub} {p : Prepared}
    (ho : Prepared.open? table settings id files hub = (.ok p, hub')) :
    hub.registry.contains p.id = false ∧ p.handle = hub.registry.entries.length
      ∧ hub'.registry = hub.registry.opened p.id := by
  obtain ⟨chosen, hreg, hp⟩ := Course.open?_ok ho
  have hid : p.id = chosen := by rw [hp]
  rw [Registry.open?_eq] at hreg
  split at hreg
  · exact absurd hreg (by simp)
  · rename_i hc
    have hpair := Option.some.inj hreg
    rw [hid]
    exact ⟨by simpa using hc, (congrArg Prod.fst hpair).symm, (congrArg Prod.snd hpair).symm⟩

/-- **A session can be opened if the registry has no entry for its id**, and the batch is one. -/
theorem open?_of_free (table : ExtractorTable) {settings : SessionSettings} {id : Option String}
    {files : List Submission} {hub : Hub} (hbatch : settings.validateBatch files.length = .ok ())
    (hfree : hub.registry.contains (Identifier.resolve id (Identifier.fresh hub.serial)) = false) :
    ∃ p hub', Prepared.open? table settings id files hub = (.ok p, hub')
      ∧ p.id = Identifier.resolve id (Identifier.fresh hub.serial) := by
  unfold Prepared.open?
  dsimp only
  rw [hbatch]
  dsimp only
  rw [Registry.open?_eq, hfree, if_neg (by simp)]
  exact ⟨_, _, rfl, rfl⟩

end Prepared

/-! ## What the others do -/

/-- What a session asks of the registry in a step it asks through its own handle. -/
theorem Run.Acted.through {r r' : Run} {hub hub' : Hub} {a : Run.Action} {handed : List Event}
    {decides : List (Event × DeliveryOutcome)} (ha : r.Acted hub a handed decides hub' r')
    (hrel : r.relay.handle = r.handle) :
    ∃ cs, (∀ c ∈ cs, Registry.Call.through r.handle c = true)
      ∧ hub'.registry = hub.registry.calls cs := by
  have hclose : ∀ c ∈ [Registry.Call.closeEntry r.handle], c.through r.handle = true :=
    List.forall_mem_singleton.mpr (beq_self_eq_true _)
  cases ha with
  | expired _ _ => exact ⟨_, hclose, rfl⟩
  | returned _ _ => exact ⟨_, hclose, rfl⟩
  | decided _ _ _ hd =>
      refine ⟨[.deliver r.relay.handle _ _ _], ?_, (Registry.call_deliver hd).symm⟩
      exact List.forall_mem_singleton.mpr (beq_iff_eq.mpr hrel)
  | _ => exact ⟨[], List.forall_mem_nil _, rfl⟩

/-- So does a reader, if its sink is the entry's. -/
theorem Outlet.move_through (o : Outlet) {h : Handle} (hs : ∀ s, o.sink = some s → s.handle = h)
    (now : Nat) (r : Registry) (m : Outlet.Move) :
    ∃ cs, (∀ c ∈ cs, Registry.Call.through h c = true) ∧ (o.move h now r m).2 = r.calls cs := by
  cases m with
  | attach =>
      refine ⟨[.take h], List.forall_mem_singleton.mpr (beq_self_eq_true _), ?_⟩
      dsimp only [move, Registry.calls_cons, Registry.calls_nil, Registry.call]
      cases r.take? h <;> rfl
  | receive deadline =>
      have hnone : ∃ cs, (∀ c ∈ cs, Registry.Call.through h c = true) ∧ r = r.calls cs :=
        ⟨[], List.forall_mem_nil _, rfl⟩
      dsimp only [move]
      cases hsink : o.sink with
      | none => exact hnone
      | some s =>
          dsimp only
          cases hr : s.receive? r now deadline with
          | none => exact hnone
          | some x =>
              obtain ⟨a, s', r'⟩ := x
              obtain ⟨_, ⟨_, _, _, hr'⟩ | ⟨_, hlook, _⟩⟩ := Sink.receive?_some hr
              · exact ⟨[], List.forall_mem_nil _, hr'⟩
              · refine ⟨[.receive s.handle now deadline],
                  List.forall_mem_singleton.mpr (beq_iff_eq.mpr (hs s hsink)), ?_⟩
                dsimp only [Registry.calls_cons, Registry.calls_nil, Registry.call]
                rw [hlook]
  | drop =>
      dsimp only [move]
      cases hsink : o.sink with
      | none => exact ⟨[], List.forall_mem_nil _, rfl⟩
      | some s =>
          have hown := beq_iff_eq.mpr (hs s hsink)
          exact ⟨[.closeEntry s.handle, .leave s.handle],
            List.forall_mem_cons.mpr ⟨hown, List.forall_mem_singleton.mpr hown⟩, rfl⟩

namespace Course

/-- Holds of the moves that are the session's own, or its mirror's. -/
def Move.isOwn : Move → Bool
  | .takeMirror | .start | .act _ | .abandon | .popMirror | .abandonMirror | .behave _ => true
  | _ => false

/-- **A session's own moves leave the reader's side alone, and what they ask of the registry
they ask through the session's handle.** -/
theorem move_own {c : Course} {mv : Move} (hmv : mv.isOwn = true)
    (hh : ∀ r, c.stage = .running r → r.handle = c.handle ∧ r.relay.handle = c.handle) :
    (c.move mv).handle = c.handle ∧ (c.move mv).outlet = c.outlet
      ∧ (c.move mv).hub.now = c.hub.now
      ∧ ∃ cs, (∀ x ∈ cs, Registry.Call.through c.handle x = true)
        ∧ (c.move mv).hub.registry = c.hub.registry.calls cs := by
  have hnone : ∃ cs, (∀ x ∈ cs, Registry.Call.through c.handle x = true)
      ∧ c.hub.registry = c.hub.registry.calls cs := ⟨[], List.forall_mem_nil _, rfl⟩
  cases mv with
  | takeMirror =>
      dsimp only [move]
      split <;> exact ⟨rfl, rfl, rfl, hnone⟩
  | start =>
      dsimp only [move]
      split <;> exact ⟨rfl, rfl, rfl, hnone⟩
  | act a =>
      dsimp only [move]
      split
      · exact ⟨rfl, rfl, rfl, hnone⟩
      · rename_i r hs
        obtain ⟨hr, hrel⟩ := hh r hs
        split
        · exact ⟨rfl, rfl, rfl, hnone⟩
        · rename_i hub r' ha
          have hacted := Run.act_acted ha
          refine ⟨rfl, rfl, hacted.terms.1, ?_⟩
          -- what its relay sends goes through the same handle
          rw [← hr]
          exact hacted.through (hrel.trans hr.symm)
  | abandon =>
      dsimp only [move]
      split
      · exact ⟨rfl, rfl, rfl, hnone⟩
      · rename_i r hs
        unfold Run.abandon
        split
        · exact ⟨rfl, rfl, rfl, [.closeEntry r.handle],
            List.forall_mem_singleton.mpr (beq_iff_eq.mpr (hh r hs).1), rfl⟩
        · exact ⟨rfl, rfl, rfl, hnone⟩
  | popMirror =>
      dsimp only [move]
      split
      · exact ⟨rfl, rfl, rfl, hnone⟩
      · split <;> exact ⟨rfl, rfl, rfl, hnone⟩
  | abandonMirror =>
      dsimp only [move]
      split <;> exact ⟨rfl, rfl, rfl, hnone⟩
  | behave table =>
      dsimp only [move]
      split <;> exact ⟨rfl, rfl, rfl, hnone⟩
  | _ => exact absurd hmv (by simp [Move.isOwn])

/-- The course of a session that was opened. -/
def Opened (p : Prepared) (c : Course) : Prop :=
  ∃ table settings id files hub hub' ms,
    Prepared.open? table settings id files hub = (.ok p, hub') ∧ c = (of p hub').play ms

namespace Opened

variable {p : Prepared} {c : Course}

theorem play (h : c.Opened p) (ms : List Move) : (c.play ms).Opened p := by
  obtain ⟨table, settings, id, files, hub, hub', ms₀, ho, hc⟩ := h
  refine ⟨table, settings, id, files, hub, hub', ms₀ ++ ms, ho, ?_⟩
  rw [hc, play_append]

theorem books (h : c.Opened p) : c.Logs p ∧ c.Books p := by
  obtain ⟨_, _, _, _, _, hub', ms, _, hc⟩ := h
  rw [hc]
  exact books_play p hub' ms

theorem delivers (h : c.Opened p) : c.Delivers p := by
  obtain ⟨_, _, _, _, _, _, ms, ho, hc⟩ := h
  rw [hc]
  exact delivers_play (delivers_of ho) ms

theorem secured (h : c.Opened p) : c.Secured p := by
  obtain ⟨_, _, _, _, _, _, ms, ho, hc⟩ := h
  rw [hc]
  exact secured_play (secured_of ho) ms

theorem handles (h : c.Opened p) (r : Run) (hs : c.stage = .running r) :
    r.handle = c.handle ∧ r.relay.handle = c.handle :=
  ⟨h.secured.running r hs, ((h.books.2.running hs).handle).trans h.secured.handle.symm⟩

/-- The entry of a run that is over is closed. -/
theorem closed (h : c.Opened p) {r : Run} (hs : c.stage = .running r) (ho : r.isOver = true) :
    c.hub.registry.Closed c.handle :=
  h.secured.closed r hs (Or.inr (Or.inr ho))

end Opened

/-- What the others ask of the registry meanwhile. -/
theorem play_others (c : Course) (cs : List Registry.Call)
    (hcs : ∀ x ∈ cs, x.spares c.handle = true) :
    c.play (cs.map .other)
      = { c with hub := { c.hub with registry := c.hub.registry.calls cs } } := by
  induction cs generalizing c with
  | nil => rfl
  | cons x cs ih =>
      have hx : c.move (.other x)
          = { c with hub := { c.hub with registry := c.hub.registry.call x } } := by
        dsimp only [move]
        rw [if_pos (hcs x List.mem_cons_self)]
      show (c.move (.other x)).play (cs.map .other) = _
      rw [hx]
      exact ih { c with hub := { c.hub with registry := c.hub.registry.call x } }
        fun y hy => hcs y (List.mem_cons_of_mem _ hy)

/-- **Others go on.** What becomes of the hub meanwhile is a piece of the session's course. -/
theorem Opened.beside {p : Prepared} {c : Course} (h : c.Opened p) {hub : Hub}
    {cs : List Registry.Call} (hnow : c.hub.now ≤ hub.now)
    (hcs : ∀ x ∈ cs, x.spares c.handle = true)
    (hreg : hub.registry = c.hub.registry.calls cs) : Opened p { c with hub } := by
  have hplay : ({ c with hub } : Course) = c.play (cs.map .other
      ++ [.wait (hub.now - c.hub.now), .outside hub.spools hub.gates hub.serial]) := by
    rw [play_append, play_others c cs hcs]
    -- the calls one by one, then the time that has passed, then what is outside the registry
    show _ = ({ c with hub := {
      now := c.hub.now + (hub.now - c.hub.now)
      registry := c.hub.registry.calls cs
      spools := hub.spools
      gates := hub.gates
      serial := hub.serial } } : Course)
    rw [← hreg, Nat.add_sub_cancel' hnow]
  rw [hplay]
  exact h.play _

end Course

end Intake
