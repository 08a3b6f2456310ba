import Intake.Proofs.Log

/-!
# The relay's accounts

An event that is handed over joins the relay's queue, and nothing else happens to it until the
relay has decided on it. So the log of a session is at any time what was decided followed by
what is pending, and the counts and the answers of the relay are those of what was decided.

That no event is refused rests on the room in the queue, which is larger than any log. That
none is forgotten when the relay ends rests on its being told to stop after the last event,
and, if nobody tells it, on its going on until nobody is left who could hand it anything.
-/

namespace Intake

/-- The command by which an event is handed over. The last event is forwarded for an answer. -/
def RelayCommand.of (e : Event) : RelayCommand :=
  if e.state.isTerminal then .forwardSync e Run.lastTicket else .forward e

namespace RelayCommand

@[simp] theorem event?_of (e : Event) : (of e).event? = some e := by
  unfold of
  split <;> rfl

theorem of_progress {e : Event} (h : e.state.isTerminal = false) : of e = .forward e := by
  unfold of
  rw [h]
  rfl

theorem of_terminal {e : Event} (h : e.state.isTerminal = true) :
    of e = .forwardSync e Run.lastTicket := by
  unfold of
  rw [if_pos h]

end RelayCommand

/-! ## Counting outcomes -/

namespace RelayStats

variable {α : Type}

/-- The counts together are the number of what was counted. -/
theorem total_eq (decided : List (α × DeliveryOutcome)) (s : RelayStats) :
    let t := decided.foldl (fun s d => s.count d.2) s
    t.delivered + t.dropped + t.suppressed
      = s.delivered + s.dropped + s.suppressed + decided.length := by
  induction decided generalizing s with
  | nil => rfl
  | cons d ds ih =>
      obtain ⟨e, o⟩ := d
      rw [List.foldl_cons, List.length_cons]
      have hrest := ih (s.count o)
      dsimp only at hrest ⊢
      rw [hrest]
      cases o <;> simp only [count] <;> omega

theorem suppressed_eq (decided : List (α × DeliveryOutcome)) (s : RelayStats) :
    (decided.foldl (fun s d => s.count d.2) s).suppressed
      = s.suppressed + decided.countP fun d => d.2 = .suppressed := by
  induction decided generalizing s with
  | nil => rfl
  | cons d ds ih =>
      obtain ⟨e, o⟩ := d
      rw [List.foldl_cons, ih, List.countP_cons]
      cases o <;> (simp [count]; try omega)

theorem delivered_eq (decided : List (α × DeliveryOutcome)) (s : RelayStats) :
    (decided.foldl (fun s d => s.count d.2) s).delivered
      = s.delivered + decided.countP fun d => d.2 = .delivered := by
  induction decided generalizing s with
  | nil => rfl
  | cons d ds ih =>
      obtain ⟨e, o⟩ := d
      rw [List.foldl_cons, ih, List.countP_cons]
      cases o <;> (simp [count]; try omega)

end RelayStats

/-! ## The accounts of a relay -/

namespace Relay

/-- The commands that are not carried out yet, the one in work first. -/
def commands (r : Relay) : List RelayCommand :=
  r.current.toList ++ r.queue

/-- **What a relay's accounts say.** -/
structure Accounts (r : Relay) (decided : List (Event × DeliveryOutcome)) (pending : List Event)
    (stops : List RelayCommand) : Prop where
  commands : r.commands = pending.map RelayCommand.of ++ stops
  stops : ∀ c ∈ stops, c = .stop
  /-- Nobody waits for room. -/
  unwaiting : r.waiting = []
  /-- The event in work may be shown. -/
  admitted : ∀ c, r.current = some c → ∃ e, c.event? = some e ∧ r.filter.admits e = true
  suppressed : ∀ d ∈ decided, d.2 = .suppressed ↔ r.filter.admits d.1 = false
  stats : r.stats = decided.foldl (fun s d => s.count d.2) {}
  answers : r.answers
    = (decided.filter (·.1.state.isTerminal)).map fun d => (Run.lastTicket, d.2)

variable {r r' : Relay} {decided : List (Event × DeliveryOutcome)} {pending : List Event}
  {stops : List RelayCommand}

namespace Accounts

theorem start (handle : Handle) (deadline capacity : Nat) (filter : ProgressFilter)
    (mirror : Option Mirror) (givers : Nat) :
    (Relay.start handle deadline capacity filter mirror givers).Accounts [] [] [] where
  commands := rfl
  stops := fun c hc => absurd hc (by simp)
  unwaiting := rfl
  admitted := fun c hc => absurd hc (by simp [Relay.start])
  suppressed := fun d hd => absurd hd (by simp)
  stats := rfl
  answers := rfl

/-- Only these fields of a relay are looked at. -/
theorem congr (h : r.Accounts decided pending stops) (hc : r'.current = r.current)
    (hq : r'.queue = r.queue) (hw : r'.waiting = r.waiting) (hf : r'.filter = r.filter)
    (hs : r'.stats = r.stats) (ha : r'.answers = r.answers) :
    r'.Accounts decided pending stops where
  commands := by
    unfold Relay.commands
    rw [hc, hq]
    exact h.commands
  stops := h.stops
  unwaiting := hw.trans h.unwaiting
  admitted := by
    rw [hc, hf]
    exact h.admitted
  suppressed := by
    rw [hf]
    exact h.suppressed
  stats := hs.trans h.stats
  answers := ha.trans h.answers

/-! ## Handing over -/

/-- A command joins the queue. -/
theorem push (h : r.Accounts decided pending stops) {pending' : List Event}
    {stops' : List RelayCommand} {c : RelayCommand}
    (hcommands : r.commands ++ [c] = pending'.map RelayCommand.of ++ stops')
    (hstops : ∀ c ∈ stops', c = .stop) :
    ({ r with queue := r.queue ++ [c] } : Relay).Accounts decided pending' stops' where
  commands := by
    rw [← hcommands]
    exact (List.append_assoc _ _ _).symm
  stops := hstops
  unwaiting := h.unwaiting
  admitted := h.admitted
  suppressed := h.suppressed
  stats := h.stats
  answers := h.answers

theorem push_event (h : r.Accounts decided pending []) {e : Event} {c : RelayCommand}
    (hc : c = RelayCommand.of e) :
    ({ r with queue := r.queue ++ [c] } : Relay).Accounts decided (pending ++ [e]) [] := by
  refine h.push ?_ (fun c hc => absurd hc (by simp))
  rw [h.commands, List.map_append, List.append_nil, List.append_nil, hc]
  rfl

theorem push_stop (h : r.Accounts decided pending []) :
    ({ r with queue := r.queue ++ [.stop] } : Relay).Accounts decided pending [.stop] := by
  refine h.push ?_ (fun c hc => List.mem_singleton.mp hc)
  rw [h.commands, List.append_nil]

end Accounts

theorem reflect_eq (r : Relay) (e : Event) : ∃ mirror, r.reflect e = { r with mirror } := by
  unfold reflect
  split
  · exact ⟨_, rfl⟩
  · exact ⟨r.mirror, rfl⟩

/-- Where nobody waits and there is room, a command is accepted at once. -/
theorem give_eq (he : r.ended = none) (hw : r.waiting = []) (hroom : r.queue.length < r.capacity)
    (c : RelayCommand) : r.give c = { r with queue := r.queue ++ [c] } := by
  have hr : r.hasRoom = true := by
    unfold hasRoom
    rw [hw]
    simpa using hroom
  unfold give
  rw [he, if_neg (by simp), if_pos hr]

theorem submit_eq (he : r.ended = none) (hw : r.waiting = [])
    (hroom : r.queue.length < r.capacity) (e : Event) (ticket : Nat) :
    ∃ mirror, r.submit e ticket
      = { r with mirror, queue := r.queue ++ [.forwardSync e ticket] } := by
  obtain ⟨mirror, hm⟩ := r.reflect_eq e
  refine ⟨mirror, ?_⟩
  unfold submit
  rw [hm]
  exact give_eq (r := { r with mirror }) he hw hroom _

theorem emit_eq (he : r.ended = none) (hw : r.waiting = [])
    (hroom : r.queue.length < r.capacity) (e : Event) :
    ∃ mirror, r.emit e = (true, { r with mirror, queue := r.queue ++ [.forward e] }) := by
  obtain ⟨mirror, hm⟩ := r.reflect_eq e
  have hr : (r.ended.isNone && ({ r with mirror } : Relay).hasRoom) = true := by
    unfold hasRoom
    dsimp only
    rw [he, hw]
    simpa using hroom
  refine ⟨mirror, ?_⟩
  unfold emit
  rw [hm]
  exact if_pos hr

/-! ## Carrying out -/

theorem pop?_eq {c : RelayCommand} (hw : r.waiting = []) (h : r.pop? = some (c, r')) :
    r.queue = c :: r'.queue ∧ r' = { r with queue := r'.queue } := by
  unfold pop? at h
  split at h
  · exact absurd h (by simp)
  · rename_i hq
    split at h
    · cases h
      exact ⟨hq, rfl⟩
    · rename_i hw'
      rw [hw] at hw'
      exact absurd hw' (by simp)

theorem pop?_none (h : r.pop? = none) : r.queue = [] := by
  unfold pop? at h
  split at h
  · assumption
  · split at h <;> exact absurd h (by simp)

namespace Accounts

/-- The first command, if it has an event, is that of the first event that is pending. -/
theorem first (h : r.Accounts decided pending stops) {c : RelayCommand}
    {rest : List RelayCommand} {e : Event} (hc : r.commands = c :: rest)
    (he : c.event? = some e) :
    ∃ more, pending = e :: more ∧ c = RelayCommand.of e
      ∧ rest = more.map RelayCommand.of ++ stops := by
  have heq := h.commands.symm.trans hc
  cases pending with
  | nil =>
      have hstop : c = .stop := h.stops c (by
        rw [List.map_nil, List.nil_append] at heq
        rw [heq]
        exact List.mem_cons_self)
      rw [hstop] at he
      exact absurd he (by simp [RelayCommand.event?])
  | cons e' more =>
      -- the command is that of the first event, which can be read off it
      rw [List.map_cons, List.cons_append] at heq
      obtain ⟨hhead, htail⟩ := List.cons.inj heq
      rw [← hhead, RelayCommand.event?_of] at he
      cases he
      exact ⟨more, rfl, hhead.symm, htail.symm⟩

/-- A first command without an event is the one to stop, and nothing is pending. -/
theorem first_stop (h : r.Accounts decided pending stops) {c : RelayCommand}
    {rest : List RelayCommand} (hc : r.commands = c :: rest) (he : c.event? = none) :
    pending = [] ∧ stops ≠ [] := by
  have heq := h.commands.symm.trans hc
  cases pending with
  | nil =>
      refine ⟨rfl, ?_⟩
      intro hnil
      rw [hnil] at heq
      exact absurd heq (by simp)
  | cons e more =>
      rw [List.map_cons, List.cons_append] at heq
      rw [← (List.cons.inj heq).1, RelayCommand.event?_of] at he
      exact absurd he (by simp)

/-- The events of the commands are what is pending. -/
theorem events (h : r.Accounts decided pending stops) :
    r.commands.filterMap RelayCommand.event? = pending := by
  have hstops : stops.filterMap RelayCommand.event? = [] := by
    rw [List.filterMap_eq_nil_iff]
    intro c hc
    rw [h.stops c hc]
    rfl
  have hsome : RelayCommand.event? ∘ RelayCommand.of = some :=
    funext RelayCommand.event?_of
  rw [h.commands, List.filterMap_append, hstops, List.append_nil, List.filterMap_map, hsome,
    List.filterMap_some]

theorem idle (h : r.Accounts decided pending stops) (hc : r.commands = []) :
    pending = [] ∧ stops = [] := by
  have heq := h.commands.symm.trans hc
  obtain ⟨hp, hs⟩ := List.append_eq_nil_iff.mp heq
  exact ⟨List.map_eq_nil_iff.mp hp, hs⟩

/-- **What was decided is off the queue, in the counts, and answered if it is to be.** -/
theorem settle {e : Event} {outcome : DeliveryOutcome} (h : r.Accounts decided (e :: pending) stops)
    (hq : r'.queue = pending.map RelayCommand.of ++ stops) (hw : r'.waiting = r.waiting)
    (hf : r'.filter = r.filter) (hs : r'.stats = r.stats) (ha : r'.answers = r.answers)
    (ho : outcome = .suppressed ↔ r.filter.admits e = false) :
    (r'.settle (RelayCommand.of e) outcome).Accounts (decided ++ [(e, outcome)]) pending stops where
  commands := hq
  stops := h.stops
  unwaiting := hw.trans h.unwaiting
  admitted := fun c hc => absurd hc (by simp [Relay.settle])
  suppressed := by
    intro d hd
    show _ ↔ r'.filter.admits d.1 = false
    rw [hf]
    rcases List.mem_append.mp hd with hold | hnew
    · exact h.suppressed d hold
    · rw [List.mem_singleton.mp hnew]
      exact ho
  stats := by
    show r'.stats.count outcome = _
    rw [hs, h.stats, List.foldl_append]
    rfl
  answers := by
    unfold Relay.settle
    dsimp only
    rw [ha, h.answers, List.filter_append, List.map_append]
    cases ht : e.state.isTerminal with
    | true =>
        have hkeep : [(e, outcome)].filter (·.1.state.isTerminal) = [(e, outcome)] := by
          simp [ht]
        rw [RelayCommand.of_terminal ht, hkeep]
        rfl
    | false =>
        have hskip : [(e, outcome)].filter (·.1.state.isTerminal) = [] := by
          simp [ht]
        rw [RelayCommand.of_progress ht, hskip]
        exact (List.append_nil _).symm

theorem finish (h : r.Accounts decided [] stops) (hw : r'.filter = r.filter)
    (hs : r'.stats = r.stats) (ha : r'.answers = r.answers) (how : RelayEnd) :
    (r'.finish how).Accounts decided [] [] where
  commands := rfl
  stops := fun c hc => absurd hc (by simp)
  unwaiting := rfl
  admitted := fun c hc => absurd hc (by simp [Relay.finish])
  suppressed := by
    intro d hd
    show _ ↔ r'.filter.admits d.1 = false
    rw [hw]
    exact h.suppressed d hd
  stats := hs.trans h.stats
  answers := ha.trans h.answers

end Accounts
end Relay

/-- The registry never decides that an event is not to be shown. -/
theorem Registry.deliver?_shown {registry registry' : Registry} {hd : Handle} {e : Event}
    {now deadline : Nat} {outcome : DeliveryOutcome}
    (h : registry.deliver? hd e now deadline = some (outcome, registry')) :
    outcome ≠ .suppressed := by
  unfold Registry.deliver? at h
  split at h
  · cases h
    simp
  · rename_i f _
    obtain ⟨⟨o, f'⟩, hf, heq⟩ := Option.map_eq_some_iff.mp h
    cases heq
    rw [Entry.deliver?_eq] at hf
    split at hf
    · cases hf
      simp
    split at hf
    · cases hf
      simp
    split at hf
    · exact absurd hf (by simp)
    · cases hf
      simp
    · split at hf
      · cases hf
        simp
      · exact absurd hf (by simp)

/-! ## The accounts of a session -/

/-- How many of those who can hand something over are the run's own. -/
def RunPhase.handles : RunPhase → Nat
  | announcing | queueing | spawning => 2
  | waiting | overdue | collecting | submitting | awaitingOutcome | stopping | awaitingStop => 1
  | returned | abandoned => 0

/-- Holds of the phases in which the run hands nothing over any more. -/
def RunPhase.isLate : RunPhase → Bool
  | awaitingStop | returned | abandoned => true
  | _ => false

namespace Run

/-- How many workers have something to do yet. -/
def busy (r : Run) : Nat :=
  r.workers.countP fun w => !w.phase.isOver

/-- Holds when nothing will be handed over any more. -/
def Quiet (r : Run) : Prop :=
  (∀ w ∈ r.workers, w.phase.isOver = true) ∧ r.phase.isLate = true

end Run

theorem Run.not_quiet {r : Run} (h : r.phase.isLate = false) : ¬ r.Quiet := by
  rintro ⟨_, hlate⟩
  rw [h] at hlate
  exact absurd hlate (by simp)

/-- An abandoned run is late, and its workers go on all the same. -/
theorem Run.not_quiet_of_running {r : Run} {w : Worker} (hm : w ∈ r.workers)
    (h : w.phase.isOver = false) : ¬ r.Quiet := by
  rintro ⟨hover, _⟩
  rw [hover w hm] at h
  exact absurd h (by simp)

theorem RunPhase.isLate_of_handles {ph : RunPhase} (h : ph.handles = 0) : ph.isLate = true := by
  cases ph <;> first | rfl | exact absurd h (by simp [handles])

/-- **The invariant of a session's relay.** -/
structure Booked (p : Prepared) (r : Run) (log : List Event)
    (decided : List (Event × DeliveryOutcome)) : Prop where
  handle : r.relay.handle = p.handle
  filter : r.relay.filter = .ofStreamProgress p.settings.streamProgress
  capacity : r.relay.capacity = queueCapacity p.files.length
  /-- The log is what was decided and what is pending. -/
  accounts : ∃ pending stops, r.relay.Accounts decided pending stops
    ∧ log = decided.map Prod.fst ++ pending ∧ (stops ≠ [] → r.Quiet)
  /-- The relay ends when there is nothing left to decide, now or later. -/
  ended : ∀ how, r.relay.ended = some how → how ≠ .killed ∧ r.relay.commands = [] ∧ r.Quiet
  returned : r.phase = .returned → r.relay.ended.isSome = true
  givers : r.relay.givers = r.phase.handles + r.busy
  /-- The outcome of the run is that of its last event. -/
  outcome : 7 ≤ r.phase.rank →
    ∃ d ∈ decided, d.1.state.isTerminal = true ∧ d.2 = r.outcome

namespace Booked

variable {p : Prepared} {r r' : Run} {log : List Event}
  {decided : List (Event × DeliveryOutcome)}

theorem start {q : Prepared} (hh : q.handle = p.handle) (hs : q.settings = p.settings)
    (hf : q.files = p.files) (now : Nat) : Booked p (Run.start q now) [] [] where
  handle := hh
  filter := by rw [← hs]; rfl
  capacity := by rw [← hf]; rfl
  accounts := ⟨[], [], Relay.Accounts.start _ _ _ _ _ _, rfl, fun h => absurd rfl h⟩
  ended := fun how hhow => absurd hhow (by simp [Run.start, Relay.start])
  returned := fun h => absurd h (by simp [Run.start])
  givers := rfl
  outcome := fun h => absurd h (by simp [Run.start, RunPhase.rank])

theorem decided_initial (h : Booked p r log decided) : decided.map Prod.fst <+: log := by
  obtain ⟨_, _, _, hlog, _⟩ := h.accounts
  rw [hlog]
  exact List.prefix_append _ _

/-- With nothing left to do, the relay has decided everything. -/
theorem decided_all (h : Booked p r log decided) (hc : r.relay.commands = []) :
    decided.map Prod.fst = log := by
  obtain ⟨_, _, hacc, hlog, _⟩ := h.accounts
  rw [(hacc.idle hc).1, List.append_nil] at hlog
  exact hlog.symm

theorem decided_returned (h : Booked p r log decided) (hp : r.phase = .returned) :
    decided.map Prod.fst = log := by
  obtain ⟨how, hhow⟩ := Option.isSome_iff_exists.mp (h.returned hp)
  exact h.decided_all (h.ended how hhow).2.1

/-- **There is room for what is still to be handed over.** -/
theorem room (h : Booked p r log decided) (hq : ¬ r.Quiet)
    (hlen : log.length ≤ 4 * p.files.length + 2) :
    ∃ pending, r.relay.Accounts decided pending [] ∧ log = decided.map Prod.fst ++ pending
      ∧ r.relay.ended = none ∧ r.relay.waiting = []
      ∧ r.relay.queue.length < r.relay.capacity := by
  obtain ⟨pending, stops, hacc, hlog, hstops⟩ := h.accounts
  have hnil : stops = [] := by
    by_contra hne
    exact hq (hstops hne)
  subst hnil
  have hend : r.relay.ended = none := by
    cases he : r.relay.ended with
    | none => rfl
    | some how => exact absurd (h.ended how he).2.2 hq
  refine ⟨pending, hacc, hlog, hend, hacc.unwaiting, ?_⟩
  -- what is queued is in the log, and there is room for any log
  have hcmds := congrArg List.length hacc.commands
  unfold Relay.commands at hcmds
  rw [List.length_append, List.append_nil, List.length_map] at hcmds
  rw [hlog, List.length_append] at hlen
  rw [h.capacity]
  unfold queueCapacity
  omega

/-- An event is handed over, without more ado. -/
theorem handed (h : Booked p r log decided) (hq : ¬ r.Quiet)
    (hlen : log.length ≤ 4 * p.files.length + 2) {e : Event} (mirror : Option Mirror)
    (hrelay : r'.relay
      = { r.relay with mirror, queue := r.relay.queue ++ [RelayCommand.of e] })
    (hp : r'.phase.handles = r.phase.handles) (hb : r'.busy = r.busy)
    (hrank : r'.phase.rank < 7) : Booked p r' (log ++ [e]) decided := by
  obtain ⟨pending, hacc, hlog, hend, _, _⟩ := h.room hq hlen
  refine {
    handle := by rw [hrelay]; exact h.handle
    filter := by rw [hrelay]; exact h.filter
    capacity := by rw [hrelay]; exact h.capacity
    accounts := ⟨pending ++ [e], [], ?_, ?_, fun hne => absurd rfl hne⟩
    ended := ?_
    returned := fun hret => absurd hrank (by rw [hret]; simp [RunPhase.rank])
    givers := by rw [hrelay, hp, hb]; exact h.givers
    outcome := fun h7 => absurd h7 (by omega) }
  · rw [hrelay]
    have hm : ({ r.relay with mirror } : Relay).Accounts decided pending [] :=
      hacc.congr rfl rfl rfl rfl rfl rfl
    exact hm.push_event rfl
  · rw [hlog, List.append_assoc]
  · intro how hhow
    rw [hrelay] at hhow
    exact absurd (hend.symm.trans hhow) (by simp)

/-- Anything but the last event is handed over by one who does not wait. -/
theorem emitted (h : Booked p r log decided) (hq : ¬ r.Quiet)
    (hlen : log.length ≤ 4 * p.files.length + 2) {e : Event}
    (he : e.state.isTerminal = false) (hrelay : r'.relay = r.relay)
    (hp : r'.phase.handles = r.phase.handles) (hb : r'.busy = r.busy)
    (hrank : r'.phase.rank < 7) : Booked p (r'.emit e) (log ++ [e]) decided := by
  obtain ⟨_, _, _, hend, hwait, hroom⟩ := h.room hq hlen
  obtain ⟨mirror, hemit⟩ := Relay.emit_eq hend hwait hroom e
  rw [← RelayCommand.of_progress he, ← hrelay] at hemit
  refine h.handed hq hlen mirror ?_ hp hb hrank
  rw [← hrelay]
  exact congrArg Prod.snd hemit

/-- Nothing is handed over and nothing decided. -/
theorem keep (h : Booked p r log decided) (givers : Nat) (mirror : Option Mirror)
    (hrelay : r'.relay = { r.relay with givers, mirror })
    (hg : givers = r'.phase.handles + r'.busy) (hq : r.Quiet → r'.Quiet)
    (hret : r'.phase = .returned → r.relay.ended.isSome = true)
    (hout : 7 ≤ r'.phase.rank →
      ∃ d ∈ decided, d.1.state.isTerminal = true ∧ d.2 = r'.outcome) :
    Booked p r' log decided := by
  obtain ⟨pending, stops, hacc, hlog, hstops⟩ := h.accounts
  refine {
    handle := by rw [hrelay]; exact h.handle
    filter := by rw [hrelay]; exact h.filter
    capacity := by rw [hrelay]; exact h.capacity
    accounts := ⟨pending, stops, ?_, hlog, fun hne => hq (hstops hne)⟩
    ended := ?_
    returned := fun hr => by rw [hrelay]; exact hret hr
    givers := by rw [hrelay]; exact hg
    outcome := hout }
  · rw [hrelay]
    exact hacc.congr rfl rfl rfl rfl rfl rfl
  · intro how hhow
    rw [hrelay] at hhow ⊢
    obtain ⟨hk, hc, hquiet⟩ := h.ended how hhow
    exact ⟨hk, hc, hq hquiet⟩

/-- The run goes on, as much a party of the relay as before. -/
theorem rephase (h : Booked p r log decided) (hrelay : r'.relay = r.relay)
    (hb : r'.busy = r.busy) (hp : r'.phase.handles = r.phase.handles)
    (hlate : r.phase.isLate = false) (hrank : r'.phase.rank < 7) :
    Booked p r' log decided := by
  refine h.keep r.relay.givers r.relay.mirror hrelay ?_ ?_ ?_ ?_
  · rw [hp, hb]
    exact h.givers
  · intro hq
    exact absurd hq (Run.not_quiet hlate)
  · intro hret
    exact absurd hrank (by rw [hret]; simp [RunPhase.rank])
  · intro h7
    omega

/-- The relay is told to stop, behind all that was handed over. -/
theorem stopped (h : Booked p r log decided) (hp : r.phase = .stopping)
    (hover : ∀ w ∈ r.workers, w.phase.isOver = true)
    (hlen : log.length ≤ 4 * p.files.length + 2) :
    Booked p { r with relay := r.relay.give .stop, phase := .awaitingStop } log decided := by
  have hq : ¬ r.Quiet := Run.not_quiet (by rw [hp]; rfl)
  obtain ⟨pending, hacc, hlog, hend, hwait, hroom⟩ := h.room hq hlen
  have hgive := Relay.give_eq hend hwait hroom .stop
  rw [hgive]
  refine {
    handle := h.handle
    filter := h.filter
    capacity := h.capacity
    accounts := ⟨pending, [.stop], hacc.push_stop, hlog, fun _ => ⟨hover, rfl⟩⟩
    ended := fun how hhow => absurd (hend.symm.trans hhow) (by simp)
    returned := fun hret => absurd hret (by simp)
    givers := ?_
    outcome := fun _ => h.outcome (by rw [hp]; simp [RunPhase.rank]) }
  show r.relay.givers = 1 + r.busy
  rw [h.givers, hp]
  rfl

/-! ## What the relay does -/

/-- The relay decides on the first event that is pending. -/
theorem settle (h : Booked p r log decided) {c : RelayCommand} {e : Event}
    {outcome : DeliveryOutcome} (queue : List RelayCommand) (hend : r.relay.ended = none)
    (hc : r.relay.commands = c :: queue) (he : c.event? = some e)
    (ho : outcome = .suppressed ↔ r.relay.filter.admits e = false) :
    Booked p { r with relay := ({ r.relay with queue } : Relay).settle c outcome } log
      (decided ++ [(e, outcome)]) := by
  obtain ⟨pending, stops, hacc, hlog, hstops⟩ := h.accounts
  obtain ⟨more, hpending, hof, hrest⟩ := hacc.first hc he
  rw [hpending] at hacc hlog
  exact {
    handle := h.handle
    filter := h.filter
    capacity := h.capacity
    accounts := by
      refine ⟨more, stops, ?_, ?_, hstops⟩
      · rw [hof]
        exact hacc.settle hrest rfl rfl rfl rfl ho
      · rw [hlog, List.map_append, List.append_assoc]
        rfl
    ended := fun how hhow => absurd (hend.symm.trans hhow) (by simp)
    returned := fun hret => by
      -- a run returns only when its relay has ended
      have hsome := h.returned hret
      rw [hend] at hsome
      exact absurd hsome (by simp)
    givers := h.givers
    outcome := fun h7 => by
      obtain ⟨d, hd, hterm, hout⟩ := h.outcome h7
      exact ⟨d, List.mem_append_left _ hd, hterm, hout⟩ }

/-- The relay takes up the first event that is pending. -/
theorem begin (h : Booked p r log decided) {c : RelayCommand} {e : Event}
    {queue : List RelayCommand} (hend : r.relay.ended = none) (hcur : r.relay.current = none)
    (hq : r.relay.queue = c :: queue) (he : c.event? = some e)
    (ha : r.relay.filter.admits e = true) :
    Booked p { r with relay := { r.relay with queue, current := some c } } log decided := by
  obtain ⟨pending, stops, hacc, hlog, hstops⟩ := h.accounts
  have hcmds := hacc.commands
  unfold Relay.commands at hcmds
  rw [hcur, hq] at hcmds
  exact {
    handle := h.handle
    filter := h.filter
    capacity := h.capacity
    accounts := ⟨pending, stops, {
      commands := hcmds
      stops := hacc.stops
      unwaiting := hacc.unwaiting
      admitted := fun c' hc' => by
        cases hc'
        exact ⟨e, he, ha⟩
      suppressed := hacc.suppressed
      stats := hacc.stats
      answers := hacc.answers }, hlog, hstops⟩
    ended := fun how hhow => absurd (hend.symm.trans hhow) (by simp)
    returned := h.returned
    givers := h.givers
    outcome := h.outcome }

/-- The relay ends, when nothing is pending or will be. -/
theorem finish (h : Booked p r log decided) {how : RelayEnd} {stops : List RelayCommand}
    (queue : List RelayCommand) (hacc : r.relay.Accounts decided [] stops)
    (hlog : log = decided.map Prod.fst) (hq : r.Quiet) (hk : how ≠ .killed) :
    Booked p { r with relay := ({ r.relay with queue } : Relay).finish how } log decided where
  handle := h.handle
  filter := h.filter
  capacity := h.capacity
  accounts := ⟨[], [], hacc.finish rfl rfl rfl how, by rw [List.append_nil]; exact hlog,
    fun hne => absurd rfl hne⟩
  ended := fun how' hhow => by
    cases hhow
    exact ⟨hk, rfl, hq⟩
  returned := fun _ => rfl
  givers := h.givers
  outcome := h.outcome

/-! ## What the workers do -/

/-- The number of busy workers goes down when one of them leaves. -/
theorem busy_set {i : Nat} {w : Worker} {s : WorkerStep} (hi : r.workers[i]? = some w)
    (ht : w.Tells s) (hw : r'.workers = r.workers.set i s.worker) :
    r.busy = r'.busy + if s.leaves then 1 else 0 := by
  obtain ⟨hlt, hget⟩ := List.getElem?_eq_some_iff.mp hi
  have hpos : 0 < r.workers.countP fun w => !w.phase.isOver :=
    List.countP_pos_iff.mpr ⟨w, List.mem_of_getElem? hi, by rw [ht.running]; rfl⟩
  unfold Run.busy
  rw [hw, List.countP_set hlt, hget, ht.running, ← ht.leaves]
  cases s.leaves
  · simp only [Bool.not_false, Bool.false_eq_true, if_true, if_false]
    omega
  · simp only [Bool.not_false, Bool.not_true, Bool.false_eq_true, if_true, if_false]
    omega

theorem worked {hub : Hub} {i : Nat} {w : Worker} {s : WorkerStep} (h : Booked p r log decided)
    (hl : Logged p r log) (hi : r.workers[i]? = some w)
    (hs : w.step? r.table hub.gates hub.spools = some s) :
    Booked p (r.applyStep hub i s).2 (log ++ s.event.toList) decided := by
  have hm : w ∈ r.workers := List.mem_of_getElem? hi
  have ht := Worker.step?_tells (hl.consistent w hm) hs
  have hrank := hl.rank_of_step hi hs
  have hquiet : ¬ r.Quiet := Run.not_quiet_of_running hm ht.running
  have hbusy : r.busy = Run.busy { r with workers := r.workers.set i s.worker }
      + if s.leaves then 1 else 0 := busy_set hi ht rfl
  cases he : s.event with
  | some e =>
      -- who tells something does not leave
      have hstay : s.leaves = false := by
        cases hlv : s.leaves with
        | false => rfl
        | true =>
            have hnone := ht.silent hlv
            rw [he] at hnone
            exact absurd hnone (by simp)
      have happly : (r.applyStep hub i s).2
          = Run.emit { r with workers := r.workers.set i s.worker } e := by
        unfold Run.applyStep
        rw [he, hstay]
        rfl
      rw [happly]
      rw [hstay] at hbusy
      refine h.emitted hquiet hl.length_le (ht.progress he) rfl rfl hbusy.symm ?_
      show r.phase.rank < 7
      omega
  | none =>
      rw [Option.toList_none, List.append_nil]
      have hgivers := h.givers
      cases hlv : s.leaves with
      | false =>
          have happly : (r.applyStep hub i s).2
              = { r with workers := r.workers.set i s.worker } := by
            unfold Run.applyStep
            rw [he, hlv]
            rfl
          rw [hlv] at hbusy
          rw [happly]
          refine h.keep r.relay.givers r.relay.mirror rfl ?_ (fun hq => absurd hq hquiet)
            h.returned h.outcome
          rw [hgivers, hbusy]
          rfl
      | true =>
          have happly : (r.applyStep hub i s).2
              = { r with
                  workers := r.workers.set i s.worker
                  relay := r.relay.release
                  barrier := r.barrier.leave } := by
            unfold Run.applyStep
            rw [he, hlv]
            rfl
          rw [hlv] at hbusy
          rw [happly]
          refine h.keep (r.relay.givers - 1) r.relay.mirror rfl ?_ (fun hq => absurd hq hquiet)
            h.returned h.outcome
          rw [hgivers, hbusy]
          rfl

/-! ## Every step -/

/-- An answer is the outcome of a last event. -/
theorem answered (h : Booked p r log decided) (hend : r.relay.ended = none)
    {outcome : DeliveryOutcome} (ha : r.relay.answer? Run.lastTicket = some outcome) :
    ∃ d ∈ decided, d.1.state.isTerminal = true ∧ d.2 = outcome := by
  obtain ⟨_, _, hacc, _, _⟩ := h.accounts
  unfold Relay.answer? at ha
  rw [hacc.answers, hend] at ha
  split at ha
  · rename_i t o hfind
    cases ha
    obtain ⟨d, hd, heq⟩ := List.mem_map.mp (List.mem_of_find?_eq_some hfind)
    cases heq
    obtain ⟨hm, hterm⟩ := List.mem_filter.mp hd
    exact ⟨d, hm, hterm, rfl⟩
  · exact absurd ha (by simp)

/-- **Preserved by every step**, with what it hands over and what it decides. -/
theorem step {hub hub' : Hub} {a : Run.Action} {handed : List Event}
    {decides : List (Event × DeliveryOutcome)} (h : Booked p r log decided)
    (hl : Logged p r log) (ha : r.Acted hub a handed decides hub' r') :
    Booked p r' (log ++ handed) (decided ++ decides) := by
  have hgivers := h.givers
  cases ha with
  | announced hp =>
      rw [List.append_nil]
      exact h.emitted (Run.not_quiet (by rw [hp]; rfl)) hl.length_le rfl rfl (by rw [hp]; rfl)
        rfl (by simp [RunPhase.rank])
  | queued hp hf =>
      rw [List.append_nil]
      exact h.emitted (Run.not_quiet (by rw [hp]; rfl)) hl.length_le rfl rfl rfl rfl
        (by simp [hp, RunPhase.rank])
  | allQueued hp hf =>
      rw [List.append_nil, List.append_nil]
      exact h.rephase rfl rfl (by rw [hp]; rfl) (by rw [hp]; rfl) (by simp [RunPhase.rank])
  | @spawned task spool queued hp hf =>
      rw [List.append_nil, List.append_nil]
      have hq : ¬ r.Quiet := Run.not_quiet (by rw [hp]; rfl)
      refine h.keep (r.relay.givers + 1) r.relay.mirror rfl ?_ (fun h' => absurd h' hq)
        h.returned (fun h7 => absurd h7 (by simp [hp, RunPhase.rank]))
      -- one more party, and one more worker that is busy
      rw [hgivers]
      show _ = _ + (r.workers ++ [({ task, spool } : Worker)]).countP _
      rw [List.countP_append]
      rfl
  | allSpawned hp hf =>
      rw [List.append_nil, List.append_nil]
      have hq : ¬ r.Quiet := Run.not_quiet (by rw [hp]; rfl)
      refine h.keep (r.relay.givers - 1) r.relay.mirror rfl ?_ (fun h' => absurd h' hq)
        (fun hr => absurd hr (by simp)) (fun h7 => absurd h7 (by simp [RunPhase.rank]))
      rw [hgivers, hp]
      show 2 + r.busy - 1 = 1 + r.busy
      omega
  | passed hp _ =>
      rw [List.append_nil, List.append_nil]
      have hsame : RunPhase.collecting.handles = r.phase.handles ∧ r.phase.isLate = false := by
        rcases hp with hp | hp <;> rw [hp] <;> exact ⟨rfl, rfl⟩
      exact h.rephase rfl rfl hsame.1 hsame.2 (by simp [RunPhase.rank])
  | expired hp _ =>
      rw [List.append_nil, List.append_nil]
      exact h.rephase rfl rfl (by rw [hp]; rfl) (by rw [hp]; rfl) (by simp [RunPhase.rank])
  | collected hp _ =>
      rw [List.append_nil, List.append_nil]
      exact h.rephase rfl rfl (by rw [hp]; rfl) (by rw [hp]; rfl) (by simp [RunPhase.rank])
  | submitted hp =>
      rw [List.append_nil]
      have hq : ¬ r.Quiet := Run.not_quiet (by rw [hp]; rfl)
      obtain ⟨_, _, _, hend, hwait, hroom⟩ := h.room hq hl.length_le
      obtain ⟨mirror, hsubmit⟩ := Relay.submit_eq hend hwait hroom r.lastEvent Run.lastTicket
      exact h.handed hq hl.length_le mirror hsubmit (by rw [hp]; rfl) rfl
        (by simp [RunPhase.rank])
  | answered hp hans =>
      rw [List.append_nil, List.append_nil]
      have hq : ¬ r.Quiet := Run.not_quiet (by rw [hp]; rfl)
      obtain ⟨_, _, _, hend, _, _⟩ := h.room hq hl.length_le
      rw [hp] at hgivers
      exact h.keep r.relay.givers r.relay.mirror rfl hgivers (fun h' => absurd h' hq)
        (fun hr => absurd hr (by simp)) (fun _ => h.answered hend hans)
  | stopped hp =>
      rw [List.append_nil, List.append_nil]
      exact h.stopped hp (hl.allOver (by rw [hp]; simp [RunPhase.rank])) hl.length_le
  | returned hp hend =>
      rw [List.append_nil, List.append_nil]
      have hover := hl.allOver (by rw [hp]; simp [RunPhase.rank])
      refine h.keep (r.relay.givers - 1) r.relay.mirror rfl ?_
        (fun _ => ⟨hover, rfl⟩) (fun _ => hend)
        (fun _ => h.outcome (by rw [hp]; simp [RunPhase.rank]))
      rw [hgivers, hp]
      show 1 + r.busy - 1 = 0 + r.busy
      omega
  | @decided c e outcome registry hend hc he hd =>
      rw [List.append_nil]
      obtain ⟨_, _, hacc, _, _⟩ := h.accounts
      obtain ⟨e', he', hadm⟩ := hacc.admitted c hc
      rw [he] at he'
      cases he'
      refine h.settle r.relay.queue hend ?_ he ?_
      · unfold Relay.commands
        rw [hc]
        rfl
      · rw [hadm]
        exact iff_of_false (Registry.deliver?_shown hd) (by simp)
  | @begun c e relay hend hc hp he hadm =>
      rw [List.append_nil, List.append_nil]
      obtain ⟨_, _, hacc, _, _⟩ := h.accounts
      obtain ⟨hq, hrelay⟩ := Relay.pop?_eq hacc.unwaiting hp
      rw [hrelay]
      exact h.begin hend hc hq he hadm
  | @suppressed c e relay hend hc hp he hadm =>
      rw [List.append_nil]
      obtain ⟨_, _, hacc, _, _⟩ := h.accounts
      obtain ⟨hq, hrelay⟩ := Relay.pop?_eq hacc.unwaiting hp
      rw [hrelay]
      refine h.settle relay.queue hend ?_ he ?_
      · unfold Relay.commands
        rw [hc, hq]
        rfl
      · exact iff_of_true rfl hadm
  | @halted c relay hend hc hp he =>
      rw [List.append_nil, List.append_nil]
      obtain ⟨pending, stops, hacc, hlog, hstops⟩ := h.accounts
      obtain ⟨hq, hrelay⟩ := Relay.pop?_eq hacc.unwaiting hp
      have hcmds : r.relay.commands = c :: relay.queue := by
        unfold Relay.commands
        rw [hc, hq]
        rfl
      -- the command to stop stands behind every event
      obtain ⟨hnil, hne⟩ := hacc.first_stop hcmds he
      subst hnil
      rw [List.append_nil] at hlog
      rw [hrelay]
      exact h.finish relay.queue hacc hlog (hstops hne) (by simp)
  | drained hend hc hp hzero =>
      rw [List.append_nil, List.append_nil]
      obtain ⟨pending, stops, hacc, hlog, _⟩ := h.accounts
      obtain ⟨hnil, _⟩ := hacc.idle (by
        unfold Relay.commands
        rw [hc, Relay.pop?_none hp]
        rfl)
      subst hnil
      rw [List.append_nil] at hlog
      rw [hzero] at hgivers
      -- nobody is left: the run is over, and so is every worker
      have hquiet : r.Quiet := by
        refine ⟨?_, ?_⟩
        · have hbusy : r.busy = 0 := by omega
          intro w hw
          have hw' := List.countP_eq_zero.mp hbusy w hw
          simpa using hw'
        · exact RunPhase.isLate_of_handles (by omega)
      exact h.finish r.relay.queue hacc hlog hquiet (by simp)
  | @worked i w s hi hs =>
      rw [List.append_nil]
      exact h.worked hl hi hs

/-! ## Moves that are no steps -/

theorem abandon (h : Booked p r log decided) (hub : Hub) :
    Booked p (r.abandon hub).2 log decided := by
  unfold Run.abandon
  split
  · rename_i hs
    have hone : r.phase.handles = 1 := by
      unfold Run.isSuspended at hs
      cases hp : r.phase <;> rw [hp] at hs <;> first | rfl | exact absurd hs (by simp)
    refine h.keep (r.relay.givers - 1) r.relay.mirror rfl ?_ (fun hq => ⟨hq.1, rfl⟩)
      (fun hr => absurd hr (by simp)) (fun h7 => absurd h7 (by simp [RunPhase.rank]))
    rw [h.givers, hone]
    show 1 + r.busy - 1 = 0 + r.busy
    omega
  · exact h

theorem tend (h : Booked p r log decided) (mirror : Option Mirror) (table : ExtractorTable) :
    Booked p { r with table, relay := { r.relay with mirror } } log decided :=
  h.keep r.relay.givers mirror rfl h.givers (fun hq => hq) h.returned h.outcome

/-! ## The counts in the report -/

/-- **When the run has returned, the counts are those of all that was decided.** -/
theorem finalStats (h : Booked p r log decided) (hp : r.phase = .returned) :
    r.relay.finalStats = { (decided.foldl (fun s d => s.count d.2) {} : RelayStats) with
      mirrored := (r.relay.mirror.map Mirror.copied).getD 0 } := by
  obtain ⟨_, _, hacc, _, _⟩ := h.accounts
  obtain ⟨how, hhow⟩ := Option.isSome_iff_exists.mp (h.returned hp)
  unfold Relay.finalStats
  rw [← hacc.stats]
  split
  · rename_i hk
    rw [hhow] at hk
    exact absurd (Option.some.inj hk) (h.ended how hhow).1
  · rfl

end Booked

/-! ## The accounts in the course of a session -/

namespace Course

/-- The invariant of a course, before and after the session begins to run. -/
def Books (p : Prepared) (c : Course) : Prop :=
  match c.stage with
  | .prepared q => q.handle = p.handle ∧ q.settings = p.settings ∧ q.files = p.files
    ∧ c.log = [] ∧ c.decided = []
  | .running r => Booked p r c.log c.decided

variable {p : Prepared} {c : Course}

theorem books_of (p : Prepared) (hub : Hub) : (of p hub).Books p := ⟨rfl, rfl, rfl, rfl, rfl⟩

theorem Books.prepared (h : c.Books p) {q : Prepared} (hs : c.stage = .prepared q) :
    q.handle = p.handle ∧ q.settings = p.settings ∧ q.files = p.files
      ∧ c.log = [] ∧ c.decided = [] := by
  unfold Books at h
  rw [hs] at h
  exact h

theorem Books.running (h : c.Books p) {r : Run} (hs : c.stage = .running r) :
    Booked p r c.log c.decided := by
  unfold Books at h
  rw [hs] at h
  exact h

/-- **Preserved by every move.** -/
theorem books_moved {c' : Course} (hl : c.Logs p) (h : c.Books p) (hm : c.Moved c') :
    c'.Books p := by
  cases hm with
  | same => exact h
  | arranged mirror table hs =>
      have hq := h.prepared hs
      exact hq
  | @started q hs =>
      obtain ⟨hh, hset, hf, hlog, hdec⟩ := h.prepared hs
      show Booked p (Run.start q c.hub.now) c.log c.decided
      rw [hlog, hdec]
      exact Booked.start hh hset hf _
  | acted hs ha => exact (h.running hs).step (hl.running hs) ha
  | abandoned hs => exact (h.running hs).abandon _
  | tended mirror table hs => exact (h.running hs).tend mirror table
  | read m => exact h
  | asked _ => exact h
  | renewed => exact h
  | around _ _ => exact h

theorem books_play (p : Prepared) (hub : Hub) (ms : List Move) :
    ((of p hub).play ms).Logs p ∧ ((of p hub).play ms).Books p :=
  play_induction (fun c => c.Logs p ∧ c.Books p)
    (fun c m h => ⟨logs_moved h.1 (c.move_moved m), books_moved h.1 h.2 (c.move_moved m)⟩)
    ⟨logs_of p hub, books_of p hub⟩ ms

/-- An invariant whose preservation rests on the log and the accounts. -/
theorem play_booked (P : Course → Prop)
    (step : ∀ c c', c.Logs p → c.Books p → c.Moved c' → P c → P c') {hub : Hub}
    (h : P (of p hub)) (ms : List Move) : P ((of p hub).play ms) := by
  have hall := play_induction (fun c => (c.Logs p ∧ c.Books p) ∧ P c)
    (fun c m ⟨⟨hl, hb⟩, hp⟩ =>
      ⟨⟨logs_moved hl (c.move_moved m), books_moved hl hb (c.move_moved m)⟩,
        step c _ hl hb (c.move_moved m) hp⟩)
    ⟨⟨logs_of p hub, books_of p hub⟩, h⟩ ms
  exact hall.2

end Course
end Intake
