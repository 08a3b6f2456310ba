import Mathlib.Data.List.Count
import Intake.Proofs.Aftermath
import Intake.Proofs.Expiry

/-!
# What a run leaves behind

A run can be given up at every point at which it waits for something, and it returns in the end.
In either case it has a few things left to do, one after the other, and others act in between.
Once it is through with them, its entry is closed, or somebody else who took it off the list is
yet to close it, and its id does not name it any more.

What it leaves behind are workers, which go on to their ends, and the relay, which ends behind the
last of them. Behind the close nothing is delivered, but for one event that the relay may have been
about to deliver. `Passage.left` bounds what they have to do: a step counts two, since it can come
in two halves, and the looks of a delivery lead to the one that finds its entry closed.
-/

namespace Intake

/-! ## What a run has to do at last -/

namespace Chore

/-- How many pieces a thing to do comes to at most. -/
def weight : Chore → Nat
  | unlist => 2
  | _ => 1

/-- How many pieces some things to do come to at most. -/
def weights : List Chore → Nat
  | [] => 0
  | c :: cs => c.weight + weights cs

theorem weights_cons (c : Chore) (cs : List Chore) : weights (c :: cs) = c.weight + weights cs :=
  rfl

theorem weight_pos (c : Chore) : 0 < c.weight := by
  cases c <;> simp [weight]

theorem eq_nil_of_weights {cs : List Chore} (h : weights cs = 0) : cs = [] := by
  cases cs with
  | nil => rfl
  | cons c cs =>
      have hpos := c.weight_pos
      rw [weights_cons] at h
      omega

end Chore

namespace Passage

variable {p : Prepared} {t t' : Passage} {r : Run}

/-- What was done is one less to do. -/
theorem chore_weights {c : Chore} {rest : List Chore} :
    Chore.weights (t.chore r rest c).chores < Chore.weights (c :: rest) := by
  rw [Chore.weights_cons]
  cases c with
  | unlist =>
      simp only [chore]
      cases (t.hub.registry.beginCloseEntry r.handle).2.1 with
      | none => simp [Chore.weight]
      | some k => simp [Chore.weight, Chore.weights_cons]
  | close k => simp [chore, Chore.weight]
  | release => simp [chore, Chore.weight]
  | stamp => simp [chore, Chore.weight]

/-- A run that is over takes no step itself. -/
theorem proceed_over (ho : r.isOver = true) : t.proceed r .run = t := by
  have hnone : ∀ hub, r.act? .run hub = none := by
    intro hub
    cases ha : r.act? .run hub with
    | none => rfl
    | some x =>
        have halive := (Run.act_acted ha).run_alive
        rw [ho] at halive
        exact absurd halive (by simp)
  unfold proceed
  split
  · rename_i c hc
    have hrun : c.party = .run := by simpa using List.find?_some hc
    unfold hand
    rw [Run.act?_unmirrored, hrun, hnone]
    rfl
  · unfold step
    rw [hnone]

theorem Moved.stays_over (hs : t.stage = .running r) (ho : r.isOver = true) (hm : t.Moved t') :
    ∃ r', t'.stage = .running r' ∧ r'.isOver = true := by
  obtain ⟨r', hs', _, hover, _⟩ := hm.goes_on hs
  exact ⟨r', hs', hover ho⟩

/-- Others leave a run that is over what it has to do. -/
theorem weights_moved (hs : t.stage = .running r) (ho : r.isOver = true) (hm : t.Moved t') :
    Chore.weights t'.chores ≤ Chore.weights t.chores := by
  have hphase := Run.phase_of_isOver ho
  cases hm with
  | @stepped r₁ r' a decides hub hs₁ _ _ ha =>
      cases run_unique hs hs₁
      show Chore.weights (if r'.phase = r.phase then t.chores else r'.phase.chores) ≤ _
      by_cases hp : r'.phase = r.phase
      · rw [if_pos hp]
      · obtain ⟨_, hret, hab⟩ := ha.alive hp
        rcases hphase with hp | hp
        · exact absurd hp hret
        · exact absurd hp hab
  | @chored r₁ c rest _ hc =>
      rw [hc]
      exact Nat.le_of_lt chore_weights
  | @abandoned r₁ hs₁ hsus _ =>
      cases run_unique hs hs₁
      unfold Run.isSuspended at hsus
      rcases hphase with hp | hp <;> rw [hp] at hsus <;> exact absurd hsus (by simp)
  | _ => exact Nat.le_refl _

/-- Holds of the moves in which the run is to do what comes next. -/
def Move.isRun : Move → Bool
  | .act .run => true
  | _ => false

theorem weights_play (hs : t.stage = .running r) (ho : r.isOver = true) (ms : List Move) :
    (∃ r', (t.play ms).stage = .running r' ∧ r'.isOver = true)
      ∧ Chore.weights (t.play ms).chores ≤ Chore.weights t.chores - ms.countP Move.isRun := by
  induction ms generalizing t r with
  | nil => exact ⟨⟨r, hs, ho⟩, Nat.le_refl _⟩
  | cons m ms ih =>
      have hm := t.move_moved m
      obtain ⟨r', hs', ho'⟩ := hm.stays_over hs ho
      obtain ⟨hstage, hle⟩ := ih hs' ho'
      refine ⟨hstage, hle.trans ?_⟩
      cases hrun : m.isRun with
      | false =>
          rw [List.countP_cons_of_neg (by simp [hrun])]
          exact Nat.sub_le_sub_right (weights_moved hs ho hm) _
      | true =>
          rw [List.countP_cons_of_pos hrun]
          -- either there was nothing to do, or a piece of it is done
          have hact : m = .act .run := by
            unfold Move.isRun at hrun
            split at hrun
            · rfl
            · exact absurd hrun (by simp)
          subst hact
          have hmove : t.move (.act .run) = t.act r .run := by
            dsimp only [move]
            rw [hs]
          have hless : Chore.weights (t.move (.act .run)).chores ≤ Chore.weights t.chores - 1 := by
            rw [hmove]
            unfold act
            cases hc : t.chores with
            | nil =>
                dsimp only
                rw [proceed_over ho, hc]
                exact Nat.le_refl _
            | cons c rest => exact Nat.le_sub_one_of_lt chore_weights
          omega

/-! ## What the others have to do -/

end Passage

/-- How many looks a delivery has left before it begins anew, at most. -/
def SendLook.left : SendLook → Nat
  | clock => 2
  | slot => 1
  | token => 0

/-- The parties of a run that is over stay the same. -/
theorem Run.Acted.parties {r r' : Run} {hub hub' : Hub} {a : Action} {handed : List Event}
    {decides : List (Event × DeliveryOutcome)} (ha : r.Acted hub a handed decides hub' r')
    (ho : r.isOver = true) : r'.actions.length = r.actions.length := by
  have hlen : r'.workers.length = r.workers.length := by
    cases a with
    | run =>
        have halive := ha.run_alive
        rw [ho] at halive
        exact absurd halive (by simp)
    | relay => rw [ha.relay_toGo.1]
    | worker i =>
        cases ha with
        | @worked _ w s _ _ =>
            rw [(Logged.applyStep_fields r hub i s).2.2.2.2, List.length_set]
  unfold actions
  simp only [List.length_cons, List.length_map, List.length_range]
  rw [hlen]

namespace Passage

variable {p : Prepared} {t t' : Passage} {r : Run}

/-- How many pieces are left to the parties of a run that is over, at most, where its entry is
closed. A step counts two, and a party that has done its first half has one less to do. -/
def left (t : Passage) (r : Run) : Nat :=
  2 * r.toGo + t.next.left + (r.actions.length - t.copying.length)

/-- Nobody is about more than one event. -/
theorem Going.copying_le (hg : Going p r t) : t.copying.length ≤ r.actions.length := by
  have hsub : t.copying.map Copying.party ⊆ r.actions := by
    intro a ha
    obtain ⟨c, hc, rfl⟩ := List.mem_map.mp ha
    have hdue := hg.due c hc
    cases hdue with
    | worked hw _ =>
        have hlt := (List.getElem?_eq_some_iff.mp hw).1
        simpa [Run.actions] using hlt
    | _ => simp [Run.actions]
  -- each party is about one event, and they are among the parties of the session
  have hle := (List.subperm_of_subset hg.parties hsub).length_le
  rw [List.length_map] at hle
  exact hle

/-- The first half of a step. -/
theorem left_copied {r' : Run} {a : Run.Action} {hub : Hub} {e : Event} {es : List Event}
    (hg : Going p r t) (hfree : t.Free a) (ha : r.act? a t.hub = some (hub, r'))
    (hh : r.handed t.hub a = e :: es) :
    (t.copy r a e hub.serial).left { r with relay := r.relay.reflect e } < t.left r := by
  obtain ⟨mirror, hm⟩ := r.relay.reflect_eq e
  -- one more is on its way, and there is still a party for each
  have hle := ((hg.copied hfree ha hh).going rfl).copying_le
  have hlen : (t.copy r a e hub.serial).copying.length = t.copying.length + 1 := by
    unfold copy
    rw [List.length_append, List.length_singleton]
  have htoGo : ({ r with relay := r.relay.reflect e } : Run).toGo = r.toGo := by
    rw [hm]
    rfl
  have hnext : (t.copy r a e hub.serial).next = t.next := rfl
  have hactions : ({ r with relay := r.relay.reflect e } : Run).actions = r.actions := rfl
  unfold left
  rw [hactions] at hle ⊢
  rw [htoGo, hnext]
  omega

/-- The second half. -/
theorem left_handed {r' : Run} {c : Copying} {hub hub' : Hub} (hg : Going p r t)
    (hc : c ∈ t.copying) (ho : r.isOver = true) (ha : r.Acted hub c.party [c.event] [] hub' r') :
    (t.deposit r' r.relay.mirror c).left
      { r' with relay := { r'.relay with mirror := r.relay.mirror } } < t.left r := by
  have hlen : t.copying.length ≤ (t.deposit r' r.relay.mirror c).copying.length + 1 := by
    have hmem : c.party ∈ t.copying.map Copying.party := List.mem_map_of_mem hc
    have herase := List.length_erase_of_mem hmem
    rw [hg.parties.erase_eq_filter, List.filter_map, List.length_map, List.length_map] at herase
    have hsame : (t.copying.filter ((· != c.party) ∘ Copying.party)).length
        = (t.deposit r' r.relay.mirror c).copying.length := rfl
    omega
  -- one less is on its way, but the step takes at least one off the rest, which counts two
  have hless := (ha.winding ho).2
  have htoGo : ({ r' with relay := { r'.relay with mirror := r.relay.mirror } } : Run).toGo
      = r'.toGo := rfl
  have hactions : ({ r' with relay := { r'.relay with mirror := r.relay.mirror } } : Run).actions
      = r'.actions := rfl
  have hnext : (t.deposit r' r.relay.mirror c).next = t.next := rfl
  unfold left
  rw [hactions, htoGo, hnext, ha.parties ho]
  omega

/-- A step as a whole. -/
theorem left_stepped {r' : Run} {a : Run.Action} {handed : List Event}
    {decides : List (Event × DeliveryOutcome)} {hub hub' : Hub} (ho : r.isOver = true)
    (ha : r.Acted hub a handed decides hub' r') (hnext : t'.next = t.next)
    (hcopying : t'.copying = t.copying) : t'.left r' < t.left r := by
  have hless := (ha.winding ho).2
  unfold left
  rw [hnext, hcopying, ha.parties ho]
  omega

/-- A look at an entry that is closed. -/
theorem left_turned {next : SendLook} (hc : t.hub.registry.Closed r.relay.handle)
    (ht : t.next.Turns t.hub.registry r.relay.handle t.hub.now r.relay.deadline next) :
    left { t with next } r < t.left r := by
  cases ht with
  | opened _ hopen =>
      rw [hc.isClosed] at hopen
      exact absurd hopen (by simp)
  | early hn _ =>
      unfold left
      rw [hn]
      simp only [SendLook.left]
      omega
  | waits hn =>
      unfold left
      rw [hn]
      simp only [SendLook.left]
      omega

/-- A look that decides. -/
theorem left_settled {c : RelayCommand} {e : Event} {o : DeliveryOutcome} {registry : Registry}
    (hc : r.relay.current = some c) :
    (t.settle r c e o registry).left { r with relay := r.relay.settle c o } < t.left r := by
  have hsettle := r.relay.settle_toGo c o
  rw [hc, Option.toList_some, List.length_singleton] at hsettle
  have htoGo : ({ r with relay := r.relay.settle c o } : Run).toGo + 1 = r.toGo := by
    unfold Run.toGo
    dsimp only
    omega
  have hnext : (t.settle r c e o registry).next.left = 0 := rfl
  have hactions : ({ r with relay := r.relay.settle c o } : Run).actions = r.actions := rfl
  have hcopying : (t.settle r c e o registry).copying = t.copying := rfl
  unfold left
  rw [hnext, hactions, hcopying]
  omega

/-- The relay begins its delivery anew. -/
theorem left_yielded (hn : t.next = .slot) : left { t with next := .token } r < t.left r := by
  unfold left
  rw [hn]
  simp only [SendLook.left]
  omega

/-- **Nothing gives the parties of a run that is over more to do.** -/
theorem left_moved (hst : t.Steady p) (hs : t.stage = .running r) (ho : r.isOver = true)
    (hc : t.hub.registry.Closed p.handle) (hm : t.Moved t') :
    ∃ r', t'.stage = .running r' ∧ r'.isOver = true ∧ t'.left r' ≤ t.left r := by
  obtain ⟨r', hs', ho'⟩ := hm.stays_over hs ho
  refine ⟨r', hs', ho', ?_⟩
  have hg := hst.going hs
  cases hm with
  | same =>
      cases run_unique hs hs'
      exact Nat.le_refl _
  | arranged _ _ _ => exact absurd hs' (by simp)
  | started hq => exact absurd (hs.symm.trans hq) (by simp)
  | copied hs₁ hfree ha hh =>
      cases run_unique hs hs₁
      cases hs'
      exact Nat.le_of_lt (left_copied hg hfree ha hh)
  | handed hs₁ hm ha =>
      cases run_unique hs hs₁
      cases hs'
      exact Nat.le_of_lt (left_handed hg hm ho (hg.acted_of_due hm rfl ha))
  | stepped hs₁ _ _ ha =>
      cases run_unique hs hs₁
      cases hs'
      exact Nat.le_of_lt (left_stepped ho ha rfl rfl)
  | turned hs₁ _ ht =>
      cases run_unique hs hs₁
      cases run_unique hs hs'
      rw [← hg.inOrder.booked.handle] at hc
      exact Nat.le_of_lt (left_turned hc ht)
  | settled hs₁ hcur _ _ =>
      cases run_unique hs hs₁
      cases hs'
      exact Nat.le_of_lt (left_settled hcur)
  | @chored r₁ c rest hs₁ _ =>
      cases run_unique hs hs₁
      cases c with
      | stamp =>
          cases hs'
          exact Nat.le_refl _
      | _ =>
          cases run_unique hs hs'
          exact Nat.le_refl _
  | yielded hn =>
      cases run_unique hs hs'
      exact Nat.le_of_lt (left_yielded hn)
  | abandoned hs₁ hsus _ =>
      cases run_unique hs hs₁
      unfold Run.isSuspended at hsus
      rcases Run.phase_of_isOver ho with hp | hp <;> rw [hp] at hsus <;>
        exact absurd hsus (by simp)
  | tended _ _ _ hs₁ =>
      cases run_unique hs hs₁
      cases hs'
      exact Nat.le_refl _
  | stirred _ =>
      cases run_unique hs hs'
      exact Nat.le_refl _
  | around _ _ =>
      cases run_unique hs hs'
      exact Nat.le_refl _

/-- Holds where a party can go on. -/
def goesOn (t : Passage) (r : Run) : Run.Action → Bool
  | .run => !t.chores.isEmpty || (r.act? .run t.hub).isSome
  | .relay => r.relay.current.isSome || (r.act? .relay t.hub).isSome
  | a => (r.act? a t.hub).isSome

/-- Holds of the moves with which a party of the session goes on. -/
def isPiece (t : Passage) : Move → Bool
  | .act a =>
    match t.stage with
    | .prepared _ => false
    | .running r => t.goesOn r a
  | .yield => decide (t.next = .slot)
  | _ => false

/-- How many pieces the session's parties take. -/
def pieces : Passage → List Move → Nat
  | _, [] => 0
  | t, m :: ms => (if t.isPiece m then 1 else 0) + pieces (t.move m) ms

/-- A step that hands nothing over, or the first half of one that does. -/
theorem left_step {a : Run.Action} (hg : Going p r t) (ho : r.isOver = true) (hfree : t.Free a)
    (ha : (r.act? a t.hub).isSome = true) {r' : Run} (hs' : (t.step r a).stage = .running r') :
    (t.step r a).left r' < t.left r := by
  obtain ⟨⟨hub, r₁⟩, ha⟩ := Option.isSome_iff_exists.mp ha
  unfold step at hs' ⊢
  rw [ha] at hs' ⊢
  dsimp only at hs' ⊢
  cases hh : r.handed t.hub a with
  | cons e es =>
      rw [hh] at hs'
      cases hs'
      exact left_copied hg hfree ha hh
  | nil =>
      rw [hh] at hs'
      cases hs'
      exact left_stepped ho (Run.act_acted ha) rfl rfl

/-- A worker goes on. -/
theorem left_proceed {i : Nat} (hg : Going p r t) (ho : r.isOver = true)
    (ha : (r.act? (.worker i) t.hub).isSome = true) {r' : Run}
    (hs' : (t.proceed r (.worker i)).stage = .running r') :
    (t.proceed r (.worker i)).left r' < t.left r := by
  unfold proceed at hs' ⊢
  cases hf : t.copying.find? fun c => c.party == .worker i with
  | none =>
      rw [hf] at hs'
      refine left_step hg ho ?_ ha hs'
      intro c hc
      simpa using List.find?_eq_none.mp hf c hc
  | some c =>
      rw [hf] at hs'
      have hc := List.mem_of_find?_eq_some hf
      have hparty : c.party = .worker i := by simpa using List.find?_some hf
      have hserial : ({ t.hub with serial := c.serial } : Hub).serial = c.serial := rfl
      obtain ⟨⟨hub, r₁, hact⟩, _⟩ := (hg.due c hc).ready
        (fun h => absurd (hparty.symm.trans h) (by simp)) hserial
      dsimp only at hs' ⊢
      unfold hand at hs' ⊢
      rw [Run.act?_unmirrored, hact] at hs' ⊢
      cases hs'
      have hless := left_handed hg hc ho (hg.acted_of_due hc rfl hact)
      exact hless

/-- The relay goes on with the event in work. -/
theorem left_look {c : RelayCommand} {e : Event} (hc : r.relay.current = some c)
    (hclosed : t.hub.registry.Closed r.relay.handle) (hs : t.stage = .running r) {r' : Run}
    (hs' : (t.look r c e).stage = .running r') : (t.look r c e).left r' < t.left r := by
  unfold look at hs' ⊢
  cases hl : t.next.look t.hub.registry r.relay.handle e t.hub.now r.relay.deadline with
  | goes next =>
      rw [hl] at hs'
      cases hs.symm.trans hs'
      exact left_turned hclosed (SendLook.turns_of_look hl)
  | decides o registry =>
      rw [hl] at hs'
      cases hs'
      exact left_settled hc

/-- **A piece is one less to do.** -/
theorem left_piece (hst : t.Steady p) (hs : t.stage = .running r) (ho : r.isOver = true)
    (hc : t.hub.registry.Closed p.handle) (hnil : t.chores = []) {m : Move}
    (hm : t.isPiece m = true) {r' : Run} (hs' : (t.move m).stage = .running r') :
    (t.move m).left r' < t.left r := by
  have hg := hst.going hs
  have hclosed := hc
  rw [← hg.inOrder.booked.handle] at hclosed
  cases m with
  | act a =>
      dsimp only [isPiece, move] at hm hs' ⊢
      rw [hs] at hm hs' ⊢
      dsimp only at hm hs' ⊢
      cases a with
      | run =>
          -- a run that is over does nothing but its chores
          unfold goesOn at hm
          rw [hnil] at hm
          obtain ⟨⟨hub, r₁⟩, ha⟩ := Option.isSome_iff_exists.mp (by simpa using hm)
          have halive := (Run.act_acted ha).run_alive
          rw [ho] at halive
          exact absurd halive (by simp)
      | relay =>
          obtain ⟨_, _, hacc, _, _⟩ := hg.inOrder.booked.accounts
          unfold act at hs' ⊢
          cases hcur : r.relay.current with
          | none =>
              rw [hcur] at hs'
              unfold goesOn at hm
              rw [hcur] at hm
              refine left_step hg ho ?_ (by simpa using hm) hs'
              intro c hmem heq
              have hdue := hg.due c hmem
              cases hdue <;> exact absurd heq (by simp)
          | some c =>
              obtain ⟨e, he, _⟩ := hacc.admitted c hcur
              simp only [hcur, he] at hs' ⊢
              exact left_look hcur hclosed hs hs'
      | worker i => exact left_proceed hg ho hm hs'
  | yield =>
      have hn : t.next = .slot := by simpa [isPiece] using hm
      dsimp only [move] at hs' ⊢
      rw [if_pos hn] at hs' ⊢
      cases hs.symm.trans hs'
      exact left_yielded hn
  | _ => exact absurd hm (by simp [isPiece])

/-- **The parties that are left come to a halt**, once the entry is closed. -/
theorem pieces_le (hst : t.Steady p) (hs : t.stage = .running r) (ho : r.isOver = true)
    (hc : t.hub.registry.Closed p.handle) (hnil : t.chores = []) (ms : List Move) :
    t.pieces ms ≤ t.left r := by
  induction ms generalizing t r with
  | nil => exact Nat.zero_le _
  | cons m ms ih =>
      have hm := t.move_moved m
      obtain ⟨r', hs', ho', hle⟩ := left_moved hst hs ho hc hm
      have hnil' : (t.move m).chores = [] := by
        have hweights := weights_moved hs ho hm
        rw [hnil] at hweights
        exact Chore.eq_nil_of_weights (Nat.le_zero.mp hweights)
      have hrest := ih (steady_moved hst hm) hs' ho' (closed_moved hc hm) hnil'
      show (if t.isPiece m then 1 else 0) + (t.move m).pieces ms ≤ t.left r
      cases hp : t.isPiece m with
      | true =>
          have hless := left_piece hst hs ho hc hnil hp hs'
          rw [if_pos rfl]
          omega
      | false =>
          rw [if_neg (by simp)]
          omega

/-! ## What is told no more -/

/-- A run that is over tells no last event, even if the mirror has its copy. -/
theorem untold_moved (hst : t.Steady p) (hs : t.stage = .running r) (ho : r.isOver = true)
    (hm : t.Moved t') : t'.events.filter (·.state.isTerminal)
      = t.events.filter (·.state.isTerminal) := by
  have hg := hst.going hs
  cases hm with
  | @handed r₁ r' c hub hs₁ hc ha =>
      cases hs.symm.trans hs₁
      have hacted := hg.acted_of_due hc rfl ha
      have hdue := hg.due c hc
      have hrun : c.party ≠ .run := by
        intro heq
        rw [heq] at hacted
        have halive := hacted.run_alive
        rw [ho] at halive
        exact absurd halive (by simp)
      have hquiet : c.event.state.isTerminal = false := by
        cases hdue with
        | worked hw hsays =>
            have hcons := hg.inOrder.logged.consistent _ (List.mem_of_getElem? hw)
            obtain ⟨s, hstep, he, _⟩ := hsays r.table [] {}
            exact (Worker.step?_tells hcons hstep).progress he
        | _ => exact absurd rfl hrun
      show ((t.log ++ [(c.party, c.event)]).map Prod.snd).filter _ = _
      rw [List.map_append, List.filter_append, List.map_cons, List.map_nil,
        List.filter_cons_of_neg (by simp [hquiet]), List.filter_nil, List.append_nil]
      rfl
  | @chored r₁ c rest _ _ => cases c <;> rfl
  | _ => rfl

theorem untold_play (hst : t.Steady p) (hs : t.stage = .running r) (ho : r.isOver = true)
    (ms : List Move) : (t.play ms).events.filter (·.state.isTerminal)
      = t.events.filter (·.state.isTerminal) := by
  induction ms generalizing t r with
  | nil => rfl
  | cons m ms ih =>
      have hm := t.move_moved m
      obtain ⟨r', hs', ho'⟩ := hm.stays_over hs ho
      exact (ih (steady_moved hst hm) hs' ho').trans (untold_moved hst hs ho hm)

/-! ## What follows -/

/-- **What is left of a session whose run is over, where its parties have come to a halt.** -/
structure WoundUp (p : Prepared) (t : Passage) (r : Run) : Prop where
  finished : ∀ w ∈ r.workers, w.phase = .finished
  /-- There was a worker for each file, -/
  names : (r.workers.map (·.task.line)).map Line.fileName = p.files.map Submission.fileName
  /-- and all have told everything: the log is whole, but perhaps for the last event. -/
  log : WholeLog p.id (r.workers.map (·.task.line)) t.events
    ∨ WholeLog p.id (r.workers.map (·.task.line)) (t.events ++ [Event.ofSession p.id .completed])
  /-- The relay has decided on everything, and ended. -/
  decided : t.decided.map Prod.fst = t.events
  ended : r.relay.ended.isSome = true

/-- **What a session leaves behind** when its run is over and has done what it had to do. -/
structure Released (p : Prepared) (t : Passage) (r : Run) : Prop where
  /-- Its entry is closed, or somebody else who took it off the list is yet to close it. -/
  closed : t.hub.registry.Closed p.handle ∨ p.handle ∈ t.closing
  /-- Its id names none, or an entry that somebody else opened later. -/
  free : ∀ k, t.hub.registry.lookup? p.id = some k → p.handle < k
  /-- If it names none, it can be opened again. -/
  reopens : t.hub.registry.lookup? p.id = none → ∀ table settings given files,
    settings.validateBatch files.length = .ok () →
    Identifier.resolve given (Identifier.fresh t.hub.serial) = p.id →
    ∃ q hub, Prepared.open? table settings given files t.hub = (.ok q, hub) ∧ q.id = p.id
  /-- From its close on one event at most is delivered, and none unless a delivery was under way
  that had found the entry open. -/
  undelivered : t.hub.registry.Closed p.handle → ∀ ms, ∃ last,
    Course.delivered (t.play ms).decided = Course.delivered t.decided ++ last
      ∧ last.length ≤ 1 ∧ (t.next = .token → last = [])
  /-- No last event is told any more. -/
  untold : ∀ ms, (t.play ms).events.filter (·.state.isTerminal)
    = t.events.filter (·.state.isTerminal)
  /-- The parties that are left come to a halt after so many pieces, -/
  bounded : t.hub.registry.Closed p.handle → ∀ ms, t.pieces ms ≤ t.left r
  /-- and if no extractor is blocked then, the workers have finished and the relay has ended. -/
  finished : ∀ ms r', (t.play ms).stage = .running r' → (t.play ms).isSettled r' = true →
    (t.play ms).hub.registry.Closed p.handle →
    (∀ w ∈ r'.workers, w.isBlocked (t.play ms).hub.gates = false) → WoundUp p (t.play ms) r'
  /-- The relay ends when the last worker is done, and not before. -/
  relay : ∀ ms r', (t.play ms).stage = .running r' →
    (r'.relay.ended.isSome = true → ∀ w ∈ r'.workers, w.phase.isOver = true)
      ∧ ((t.play ms).isSettled r' = true → (t.play ms).hub.registry.Closed p.handle →
        (∀ w ∈ r'.workers, w.phase.isOver = true) → r'.relay.ended.isSome = true)

/-- The relay of a run that is over ends with the last worker. -/
theorem Going.relay_ends (hg : Going p r t) (ho : r.isOver = true) :
    (r.relay.ended.isSome = true → ∀ w ∈ r.workers, w.phase.isOver = true)
      ∧ (t.isSettled r = true → t.hub.registry.Closed p.handle →
        (∀ w ∈ r.workers, w.phase.isOver = true) → r.relay.ended.isSome = true) := by
  have hb := hg.inOrder.booked
  refine ⟨?_, ?_⟩
  · intro hended
    obtain ⟨how, hhow⟩ := Option.isSome_iff_exists.mp hended
    exact (hb.ended how hhow).2.2.1
  · intro hset hclosed hover
    rw [← hb.handle] at hclosed
    exact hb.ended_of_settled ho (of_settled hset).2.2 hover hclosed

/-- The parties of a run that is over, where they have come to a halt. -/
theorem Going.wound_up (hg : Going p r t) (ho : r.isOver = true) (hset : t.isSettled r = true)
    (hclosed : t.hub.registry.Closed p.handle)
    (hfree : ∀ w ∈ r.workers, w.isBlocked t.hub.gates = false) : WoundUp p t r := by
  have hl := hg.inOrder.logged
  have hb := hg.inOrder.booked
  have hfinished := hl.finished_of_settled (of_settled hset).2.2 hfree
  have hover : ∀ w ∈ r.workers, w.phase.isOver = true := by
    intro w hw
    rw [hfinished w hw]
    rfl
  have hended := (hg.relay_ends ho).2 hset hclosed hover
  obtain ⟨how, hhow⟩ := Option.isSome_iff_exists.mp hended
  obtain ⟨hnames, hlog⟩ := hl.wound_up ho hover
  exact ⟨hfinished, hnames, hlog, hb.decided_all (hb.ended how hhow).2.1, hended⟩

/-- **What a run leaves behind**, once it has done what it had to do. -/
theorem Secured.released (hst : t.Steady p) (hsec : t.Secured p) (hs : t.stage = .running r)
    (ho : r.isOver = true) (hnil : t.chores = []) : Released p t r := by
  obtain ⟨hcloses, hunlisted⟩ := hsec.closed r hs (Or.inr (Or.inr ho)) (by rw [hnil]; simp)
  have hlater : ∀ ms, ∀ r', (t.play ms).stage = .running r' →
      Going p r' (t.play ms) ∧ r'.isOver = true := by
    intro ms r' hs'
    obtain ⟨⟨x, hx, hox⟩, _⟩ := weights_play hs ho ms
    rw [hs'] at hx
    cases hx
    exact ⟨(steady_play hst ms).going hs', hox⟩
  refine ⟨?_, ?_, ?_, ?_, untold_play hst hs ho, fun hc => pieces_le hst hs ho hc hnil, ?_, ?_⟩
  · unfold Closes own at hcloses
    rw [hnil, List.filterMap_nil, List.append_nil] at hcloses
    exact hcloses
  · intro k hk
    have hmem := Registry.mem_of_lookup? hk
    have hne : p.handle ≠ k := by
      rintro rfl
      exact hunlisted hmem
    exact Nat.lt_of_le_of_ne (hsec.guarded.later k hmem) hne
  · intro hnone table settings given files hbatch hid
    have hcontains : t.hub.registry.contains p.id = false := by
      unfold Registry.contains
      rw [hnone]
      rfl
    rw [← hid] at hcontains
    obtain ⟨q, hub, hq, hqid⟩ := Prepared.open?_of_free table hbatch hcontains
    exact ⟨q, hub, hq, hqid.trans hid⟩
  · intro hc ms
    obtain ⟨last, hlast, hlen, hnone⟩ := Ceasing.play (Or.inr hc) hst hs ms
    exact ⟨last, hlast, hlen, fun hn => hnone (Or.inr ⟨hc, hn⟩)⟩
  · intro ms r' hs' hset hclosed hfree
    obtain ⟨hg, ho'⟩ := hlater ms r' hs'
    exact hg.wound_up ho' hset hclosed hfree
  · intro ms r' hs'
    obtain ⟨hg, ho'⟩ := hlater ms r' hs'
    exact hg.relay_ends ho'

end Passage
end Intake
