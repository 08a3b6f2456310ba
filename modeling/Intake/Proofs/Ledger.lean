import Intake.Proofs.Accounts
import Intake.Proofs.Outlet

/-!
# The ledger of a relay

All commands of a relay share one queue of bounded room. An event that is handed over is refused
where there is no room; the other commands wait for it, and the first who waits gets the room of
the command that is taken off. `Relay.Stepped` says what a step of a relay can do, with what
joins the queue and what is carried out.

What ties the two together is that the commands that joined the queue are those that were carried
out, followed by what the relay still holds: `Relay.Ledger`. A relay ends with the command to
stop, and all that it ever waits for is its entry.
-/

namespace Intake

/-- The command to stop is the one without an event. -/
theorem RelayCommand.eq_stop {c : RelayCommand} (h : c.event? = none) : c = .stop := by
  cases c with
  | stop => rfl
  | _ => exact absurd h (by simp [event?])

namespace Relay

/-! ## What joins the queue and what leaves it -/

/-- What joins the queue when a command is given. -/
def joined (r : Relay) (c : RelayCommand) : List RelayCommand :=
  if r.ended.isNone && r.hasRoom then [c] else []

/-- What has to wait for room when a command is given that can wait. -/
def delayed (r : Relay) (c : RelayCommand) : List RelayCommand :=
  if r.ended.isNone && !r.hasRoom then [c] else []

/-- What joins the queue when the relay takes a step: the first who waits gets the room of the
command that is taken off. -/
def admitted (r : Relay) : List RelayCommand :=
  match r.current, r.queue with
  | none, _ :: _ => r.waiting.take 1
  | _, _ => []

/-- The command that a step carries out, with the outcome of its event. -/
def handles (r : Relay) (registry : Registry) (now : Nat) :
    List (RelayCommand × DeliveryOutcome) :=
  (r.commands.take 1).zip ((r.decides registry now).map Prod.snd)

variable {r r' : Relay} {registry registry' : Registry} {now : Nat}

theorem give_split (r : Relay) (c : RelayCommand) :
    r.give c = { r with queue := r.queue ++ r.joined c, waiting := r.waiting ++ r.delayed c } := by
  have hnone : r.ended.isNone = !r.ended.isSome := by cases r.ended <;> rfl
  unfold give joined delayed
  rw [hnone]
  cases r.ended.isSome <;> cases r.hasRoom <;> simp

theorem joined_reflect (r : Relay) (e : Event) (c : RelayCommand) :
    (r.reflect e).joined c = r.joined c ∧ (r.reflect e).delayed c = r.delayed c := by
  obtain ⟨mirror, hm⟩ := r.reflect_eq e
  rw [hm]
  exact ⟨rfl, rfl⟩

theorem submit_split (r : Relay) (e : Event) (ticket : Nat) :
    ∃ mirror, r.submit e ticket = { r with
      mirror
      queue := r.queue ++ r.joined (.forwardSync e ticket)
      waiting := r.waiting ++ r.delayed (.forwardSync e ticket) } := by
  obtain ⟨mirror, hm⟩ := r.reflect_eq e
  obtain ⟨hj, hd⟩ := r.joined_reflect e (.forwardSync e ticket)
  refine ⟨mirror, ?_⟩
  unfold submit
  rw [give_split, hj, hd, hm]

/-- An event that is handed over is accepted if it joins the queue, and is forgotten if not. -/
theorem emit_split (r : Relay) (e : Event) :
    ∃ mirror, r.emit e = (r.ended.isNone && r.hasRoom,
      { r with mirror, queue := r.queue ++ r.joined (.forward e) }) := by
  obtain ⟨mirror, hm⟩ := r.reflect_eq e
  refine ⟨mirror, ?_⟩
  unfold emit enqueue joined
  rw [hm]
  have hroom : ({ r with mirror } : Relay).hasRoom = r.hasRoom := rfl
  dsimp only
  rw [hroom]
  cases r.ended.isNone && r.hasRoom <;> simp

theorem pop?_split {c : RelayCommand} (h : r.pop? = some (c, r')) :
    ∃ queue, r.queue = c :: queue
      ∧ r' = { r with queue := queue ++ r.waiting.take 1, waiting := r.waiting.drop 1 } := by
  unfold pop? at h
  split at h
  · exact absurd h (by simp)
  · rename_i c' queue hq
    split at h
    · rename_i hw
      cases h
      refine ⟨_, hq, ?_⟩
      rw [hw]
      simp
    · rename_i w waiting hw
      cases h
      refine ⟨_, hq, ?_⟩
      rw [hw]
      rfl

/-- **The things that a step of a relay can do**, each with what joins the queue and with what
is carried out. -/
inductive Stepped (r : Relay) (registry : Registry) (now : Nat) :
    List RelayCommand → List (RelayCommand × DeliveryOutcome) → Relay → Registry → Prop
  | decided {c : RelayCommand} {e : Event} {outcome : DeliveryOutcome} {registry' : Registry} :
      r.current = some c → c.event? = some e →
      registry.deliver? r.handle e now r.deadline = some (outcome, registry') →
      r.Stepped registry now [] [(c, outcome)] (r.settle c outcome) registry'
  | begun {c : RelayCommand} {e : Event} {queue : List RelayCommand} : r.current = none →
      r.queue = c :: queue → c.event? = some e → r.filter.admits e = true →
      r.Stepped registry now (r.waiting.take 1) [] { r with
        current := some c
        queue := queue ++ r.waiting.take 1
        waiting := r.waiting.drop 1 } registry
  | suppressed {c : RelayCommand} {e : Event} {queue : List RelayCommand} : r.current = none →
      r.queue = c :: queue → c.event? = some e → r.filter.admits e = false →
      r.Stepped registry now (r.waiting.take 1) [(c, .suppressed)] (settle { r with
        queue := queue ++ r.waiting.take 1
        waiting := r.waiting.drop 1 } c .suppressed) registry
  | halted {queue : List RelayCommand} : r.current = none → r.queue = .stop :: queue →
      r.Stepped registry now (r.waiting.take 1) [] (r.finish .stopped) registry
  | drained : r.current = none → r.queue = [] → r.givers = 0 →
      r.Stepped registry now [] [] (r.finish .drained) registry

theorem step?_stepped (h : r.step? registry now = some (r', registry')) :
    r.ended = none
      ∧ r.Stepped registry now r.admitted (r.handles registry now) r' registry' := by
  unfold step? at h
  split at h
  · exact absurd h (by simp)
  · rename_i hended
    refine ⟨by simpa using hended, ?_⟩
    split at h
    · rename_i c hc
      split at h
      · exact absurd h (by simp)
      · rename_i e he
        obtain ⟨⟨outcome, registry₁⟩, hd, heq⟩ := Option.map_eq_some_iff.mp h
        cases heq
        have hadmitted : r.admitted = [] := by
          unfold admitted
          rw [hc]
        have hhandles : r.handles registry now = [(c, outcome)] := by
          unfold handles decides commands
          rw [hc]
          dsimp only
          rw [he, Option.bind_some, hd]
          rfl
        rw [hadmitted, hhandles]
        exact .decided hc he hd
    · rename_i hc
      split at h
      · rename_i c r₁ hp
        obtain ⟨queue, hq, hr₁⟩ := pop?_split hp
        have hadmitted : r.admitted = r.waiting.take 1 := by
          unfold admitted
          rw [hc, hq]
        have hhandles : r.handles registry now
            = [c].zip (((c.event?.bind fun e =>
              if r.filter.admits e then none else some (e, DeliveryOutcome.suppressed)).toList).map
                Prod.snd) := by
          unfold handles decides commands
          rw [hc, hp, hq]
          rfl
        cases h
        unfold begin
        rw [hadmitted, hhandles]
        cases he : c.event? with
        | none =>
            have hstop := RelayCommand.eq_stop he
            subst hstop hr₁
            exact .halted hc hq
        | some e =>
            have hfilter : r₁.filter = r.filter := by rw [hr₁]
            dsimp only
            rw [hfilter, Option.bind_some]
            cases ha : r.filter.admits e with
            | true =>
                subst hr₁
                exact .begun hc hq he ha
            | false =>
                subst hr₁
                exact .suppressed hc hq he ha
      · rename_i hp
        split at h
        · rename_i hg
          cases h
          have hq := pop?_none hp
          have hadmitted : r.admitted = [] := by
            unfold admitted
            rw [hc, hq]
          have hhandles : r.handles registry now = [] := by
            unfold handles commands
            rw [hc, hq]
            rfl
          rw [hadmitted, hhandles]
          exact .drained hc hq hg
        · exact absurd h (by simp)

/-- **Who waits does so until it joins the queue**, or the relay ends. -/
theorem Stepped.waiting {joined : List RelayCommand}
    {carried : List (RelayCommand × DeliveryOutcome)}
    (hs : r.Stepped registry now joined carried r' registry') :
    (joined ++ r'.waiting).Sublist r.waiting
      ∧ (r'.ended = none → joined ++ r'.waiting = r.waiting) ∧ r'.givers = r.givers := by
  have htake : r.waiting.take 1 ++ r.waiting.drop 1 = r.waiting := List.take_append_drop 1 _
  have hall : (r.waiting.take 1 ++ r.waiting.drop 1).Sublist r.waiting := by rw [htake]
  cases hs with
  | decided _ _ _ => exact ⟨List.Sublist.refl _, fun _ => rfl, rfl⟩
  | begun _ _ _ _ => exact ⟨hall, fun _ => htake, rfl⟩
  | suppressed _ _ _ _ => exact ⟨hall, fun _ => htake, rfl⟩
  | halted _ _ =>
      refine ⟨?_, fun h => absurd h (by simp [finish]), rfl⟩
      show (r.waiting.take 1 ++ []).Sublist _
      rw [List.append_nil]
      exact List.take_sublist _ _
  | drained _ _ _ =>
      exact ⟨List.nil_sublist _, fun h => absurd h (by simp [finish]), rfl⟩

end Relay

/-- Holds of an entry that keeps a delivery waiting: it is not closed, the deadline lies ahead,
and the reader has not come yet or has not taken what waits for it. -/
structure Entry.Detains (e : Entry) (now deadline : Nat) : Prop where
  opened : e.closed = false
  early : now < deadline
  reader : e.reader = .awaited ∨ e.reader = .present ∧ e.slot.isSome = true

theorem Entry.detains_of_none {e : Entry} {event : Event} {now deadline : Nat}
    (h : e.deliver? event now deadline = none) : e.Detains now deadline := by
  rw [Entry.deliver?_eq] at h
  split at h
  · exact absurd h (by simp)
  · rename_i hclosed
    split at h
    · exact absurd h (by simp)
    · rename_i hnow
      refine ⟨by simpa using hclosed, by omega, ?_⟩
      split at h
      · rename_i hr
        exact Or.inl hr
      · exact absurd h (by simp)
      · rename_i hr
        split at h
        · exact absurd h (by simp)
        · rename_i hslot
          refine Or.inr ⟨hr, ?_⟩
          cases hs : e.slot with
          | none =>
              rw [hs] at hslot
              exact absurd rfl hslot
          | some _ => rfl

namespace Relay

variable {r r' : Relay} {registry registry' : Registry} {now : Nat}

/-! ## The relay's ledger -/

/-- **What a relay holds is what was accepted and not carried out.** -/
structure Ledger (r : Relay) (accepted : List RelayCommand)
    (handled : List (RelayCommand × DeliveryOutcome)) : Prop where
  flow : r.ended = none → accepted = handled.map Prod.fst ++ r.commands
  /-- The relay ends with the command to stop, which comes behind what was carried out. -/
  ended : ∀ how, r.ended = some how → how = .stopped
    ∧ handled.map Prod.fst ++ [.stop] <+: accepted
  /-- The event in work may be shown. -/
  shown : ∀ c, r.current = some c → ∃ e, c.event? = some e ∧ r.filter.admits e = true
  outcomes : ∀ d ∈ handled, ∃ e, d.1.event? = some e
    ∧ (d.2 = .suppressed ↔ r.filter.admits e = false)
  stats : r.stats = handled.foldl (fun s d => s.count d.2) {}
  answers : r.answers = handled.filterMap fun d => d.1.ticket?.map fun t => (t, d.2)
  room : 0 < r.capacity
  /-- Nobody waits while there is room. -/
  full : r.waiting ≠ [] → r.capacity ≤ r.queue.length

namespace Ledger

variable {accepted : List RelayCommand} {handled : List (RelayCommand × DeliveryOutcome)}

theorem start (handle : Handle) (deadline capacity : Nat) (filter : ProgressFilter)
    (mirror : Option Mirror) (givers : Nat) :
    (Relay.start handle deadline capacity filter mirror givers).Ledger [] [] where
  flow := fun _ => rfl
  ended := fun how h => absurd h (by simp [Relay.start])
  shown := fun c h => absurd h (by simp [Relay.start])
  outcomes := fun d h => absurd h (by simp)
  stats := rfl
  answers := rfl
  room := by
    show 0 < max capacity 1
    omega
  full := fun h => absurd rfl h

/-- Only these fields of a relay are looked at. -/
theorem congr (h : r.Ledger accepted handled) (he : r'.ended = r.ended)
    (hc : r'.current = r.current) (hq : r'.queue = r.queue) (hw : r'.waiting = r.waiting)
    (hf : r'.filter = r.filter) (hs : r'.stats = r.stats) (ha : r'.answers = r.answers)
    (hroom : r'.capacity = r.capacity) : r'.Ledger accepted handled where
  flow := by
    unfold commands
    rw [he, hc, hq]
    exact h.flow
  ended := by
    rw [he]
    exact h.ended
  shown := by
    rw [hc, hf]
    exact h.shown
  outcomes := by
    rw [hf]
    exact h.outcomes
  stats := hs.trans h.stats
  answers := ha.trans h.answers
  room := by
    rw [hroom]
    exact h.room
  full := by
    rw [hw, hroom, hq]
    exact h.full

/-- **A command that is given is accepted when it joins the queue.** -/
theorem give (h : r.Ledger accepted handled) (c : RelayCommand) (mirror : Option Mirror)
    {more : List RelayCommand} (hmore : more = [] ∨ more = r.delayed c) :
    Ledger { r with mirror, queue := r.queue ++ r.joined c, waiting := r.waiting ++ more }
      (accepted ++ r.joined c) handled where
  flow := by
    intro he
    rw [h.flow he]
    unfold commands
    rw [List.append_assoc, List.append_assoc]
  ended := by
    intro how he
    obtain ⟨hhow, hpre⟩ := h.ended how he
    exact ⟨hhow, hpre.trans (List.prefix_append _ _)⟩
  shown := h.shown
  outcomes := h.outcomes
  stats := h.stats
  answers := h.answers
  room := h.room
  full := by
    intro hw
    show r.capacity ≤ (r.queue ++ r.joined c).length
    rw [List.length_append]
    by_cases hold : r.waiting = []
    · -- who has to wait now finds the queue full
      have hmore' : more ≠ [] := by
        intro hnil
        rw [hold, hnil] at hw
        exact hw rfl
      rcases hmore with hnil | hdelayed
      · exact absurd hnil hmore'
      · rw [hdelayed] at hmore'
        unfold delayed at hmore'
        have hroom : r.hasRoom = false := by
          by_contra hroom
          rw [Bool.not_eq_false] at hroom
          rw [hroom] at hmore'
          simp at hmore'
        unfold hasRoom at hroom
        rw [hold] at hroom
        simp at hroom
        omega
    · have := h.full hold
      omega

/-- Who gives up waiting takes nothing back that was accepted. -/
theorem withdraw (h : r.Ledger accepted handled) (ticket : Nat) :
    (r.withdraw ticket).Ledger accepted handled where
  flow := h.flow
  ended := h.ended
  shown := h.shown
  outcomes := h.outcomes
  stats := h.stats
  answers := h.answers
  room := h.room
  full := by
    intro hw
    refine h.full fun hnil => hw ?_
    show r.waiting.filter _ = []
    rw [hnil]
    rfl

/-- What is carried out is in the counts, and answered if it is to be. -/
theorem settle {c : RelayCommand} {e : Event} {outcome : DeliveryOutcome}
    {accepted' : List RelayCommand} (h : r.Ledger accepted handled) (he : c.event? = some e)
    (hended : r'.ended = none) (hflow : accepted' = handled.map Prod.fst ++ c :: r'.queue)
    (hf : r'.filter = r.filter) (hs : r'.stats = r.stats) (ha : r'.answers = r.answers)
    (hroom : r'.capacity = r.capacity) (hfull : r'.waiting ≠ [] → r'.capacity ≤ r'.queue.length)
    (ho : outcome = .suppressed ↔ r.filter.admits e = false) :
    (r'.settle c outcome).Ledger accepted' (handled ++ [(c, outcome)]) where
  flow := by
    intro _
    rw [hflow, List.map_append, List.append_assoc]
    rfl
  ended := fun how hhow => absurd (hended.symm.trans hhow) (by simp)
  shown := fun c hc => absurd hc (by simp [Relay.settle])
  outcomes := by
    intro d hd
    show ∃ e, _ ∧ (_ ↔ r'.filter.admits e = false)
    rw [hf]
    rcases List.mem_append.mp hd with hold | hnew
    · exact h.outcomes d hold
    · rw [List.mem_singleton.mp hnew]
      exact ⟨e, he, ho⟩
  stats := by
    show r'.stats.count outcome = _
    rw [hs, h.stats, List.foldl_append]
    rfl
  answers := by
    unfold Relay.settle
    dsimp only
    rw [ha, h.answers, List.filterMap_append]
    cases ht : c.ticket? <;> simp [ht]
  room := by
    show 0 < r'.capacity
    rw [hroom]
    exact h.room
  full := hfull

/-- The queue after one command was taken off it. -/
theorem popped (h : r.Ledger accepted handled) {c : RelayCommand} {queue : List RelayCommand}
    (he : r.ended = none) (hc : r.current = none) (hq : r.queue = c :: queue) :
    accepted ++ r.waiting.take 1
        = handled.map Prod.fst ++ c :: (queue ++ r.waiting.take 1)
      ∧ (r.waiting.drop 1 ≠ [] → r.capacity ≤ (queue ++ r.waiting.take 1).length) := by
  constructor
  · rw [h.flow he]
    unfold commands
    rw [hc, hq]
    simp
  · intro hw
    cases hwait : r.waiting with
    | nil =>
        rw [hwait] at hw
        exact absurd rfl hw
    | cons w waiting =>
        have hfull := h.full (by rw [hwait]; simp)
        rw [hq] at hfull
        simpa using hfull

/-- **Preserved by every step of the relay.** A relay that somebody can still give commands
does not run dry. -/
theorem step {joined : List RelayCommand} {carried : List (RelayCommand × DeliveryOutcome)}
    (h : r.Ledger accepted handled) (hg : 0 < r.givers) (he : r.ended = none)
    (hs : r.Stepped registry now joined carried r' registry') :
    r'.Ledger (accepted ++ joined) (handled ++ carried) := by
  cases hs with
  | @decided c e outcome _ hc hev hd =>
      obtain ⟨e', hev', hadmits⟩ := h.shown c hc
      rw [hev] at hev'
      cases hev'
      have hflow := h.flow he
      unfold commands at hflow
      rw [hc] at hflow
      rw [List.append_nil]
      refine h.settle hev he hflow rfl rfl rfl rfl h.full ?_
      rw [hadmits]
      exact iff_of_false (Registry.deliver?_shown hd) (by simp)
  | @begun c e queue hc hq hev hadmits =>
      obtain ⟨hflow, hfull⟩ := h.popped he hc hq
      rw [List.append_nil]
      refine ⟨fun _ => hflow, fun how hhow => absurd (he.symm.trans hhow) (by simp), ?_,
        h.outcomes, h.stats, h.answers, h.room, hfull⟩
      intro c' hc'
      cases hc'
      exact ⟨e, hev, hadmits⟩
  | suppressed hc hq hev hadmits =>
      obtain ⟨hflow, hfull⟩ := h.popped he hc hq
      exact h.settle hev he hflow rfl rfl rfl rfl hfull (iff_of_true rfl hadmits)
  | @halted queue hc hq =>
      obtain ⟨hflow, _⟩ := h.popped he hc hq
      rw [List.append_nil]
      refine ⟨fun hend => absurd hend (by simp [finish]), ?_,
        fun c hc' => absurd hc' (by simp [finish]), h.outcomes, h.stats, h.answers, h.room,
        fun hw => absurd rfl hw⟩
      intro how hhow
      cases hhow
      refine ⟨rfl, queue ++ r.waiting.take 1, ?_⟩
      rw [hflow, List.append_assoc]
      rfl
  | drained _ _ hnone => omega

/-- **A step carries nothing out and leaves the registry alone, or it carries out the next
command**: it suppresses the event, or has the entry decide. -/
theorem decision {joined : List RelayCommand} {carried : List (RelayCommand × DeliveryOutcome)}
    (h : r.Ledger accepted handled) (hs : r.Stepped registry now joined carried r' registry') :
    carried = [] ∧ registry' = registry
      ∨ ∃ c e outcome, carried = [(c, outcome)] ∧ r.commands.head? = some c ∧ c.event? = some e
        ∧ (r.filter.admits e = false ∧ outcome = .suppressed ∧ registry' = registry
          ∨ r.filter.admits e = true
            ∧ registry.deliver? r.handle e now r.deadline = some (outcome, registry')) := by
  cases hs with
  | @decided c e outcome _ hc he hd =>
      obtain ⟨e', he', hadmits⟩ := h.shown c hc
      rw [he] at he'
      cases he'
      refine Or.inr ⟨c, e, outcome, rfl, ?_, he, Or.inr ⟨hadmits, hd⟩⟩
      unfold commands
      rw [hc]
      rfl
  | begun _ _ _ _ => exact Or.inl ⟨rfl, rfl⟩
  | @suppressed c e queue hc hq he hadmits =>
      refine Or.inr ⟨c, e, .suppressed, rfl, ?_, he, Or.inl ⟨hadmits, rfl, rfl⟩⟩
      unfold commands
      rw [hc, hq]
      rfl
  | halted _ _ => exact Or.inl ⟨rfl, rfl⟩
  | drained _ _ _ => exact Or.inl ⟨rfl, rfl⟩

/-- **What a relay that cannot take a step waits for.** -/
theorem stuck (h : r.Ledger accepted handled) (hs : r.step? registry now = none) :
    r.ended.isSome = true ∨ r.commands = [] ∧ r.waiting = []
      ∨ ∃ c e entry, r.commands.head? = some c ∧ c.event? = some e ∧ r.filter.admits e = true
        ∧ registry.entry? r.handle = some entry ∧ entry.Detains now r.deadline := by
  unfold step? at hs
  split at hs
  · rename_i hended
    exact Or.inl hended
  · right
    split at hs
    · rename_i c hc
      obtain ⟨e, he, hadmits⟩ := h.shown c hc
      right
      rw [he] at hs
      have hd := Option.map_eq_none_iff.mp hs
      unfold Registry.deliver? at hd
      split at hd
      · exact absurd hd (by simp)
      · rename_i entry hentry
        refine ⟨c, e, entry, ?_, he, hadmits, hentry,
          Entry.detains_of_none (Option.map_eq_none_iff.mp hd)⟩
        unfold commands
        rw [hc]
        rfl
    · rename_i hc
      split at hs
      · exact absurd hs (by simp)
      · rename_i hp
        have hq := pop?_none hp
        refine Or.inl ⟨?_, ?_⟩
        · unfold commands
          rw [hc, hq]
          rfl
        · by_contra hw
          have hfull := h.full hw
          have hroom := h.room
          rw [hq, List.length_nil] at hfull
          omega

end Ledger
end Relay
end Intake
