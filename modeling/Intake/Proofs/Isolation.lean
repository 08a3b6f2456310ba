import Intake.Proofs.Fleet

/-!
# Sessions are kept apart

An id may name several runs, one after the other and even at the same time: its entry is closed
while the older run is still at work, and the id is opened again. Each run has an entry of its
own, and a sink reads the entry that it attached to. What it receives comes from the run whose
opening made that entry, and nothing that another run does, of the same id or not, concerns it.
-/

namespace Intake

/-- The events that a session has handed over are its own. -/
theorem Course.Opened.guid {p : Prepared} {c : Course} (h : c.Opened p) {e : Event}
    (he : e ∈ c.log) : e.guid = p.id := by
  have hl := h.books.1
  cases hs : c.stage with
  | prepared q =>
      rw [(hl.prepared hs).2.2] at he
      exact absurd he (by simp)
  | running r =>
      obtain ⟨_, _, _, hwhole, hbegin⟩ := (hl.running hs).prefix_whole
      exact wholeLog_guid hwhole (hbegin.subset he)

namespace Fleet

/-- How an entry is, how it is listed and who reads it is the same in two fleets. -/
structure Same (f f' : Fleet) (k : Handle) : Prop where
  registry : f.hub.registry.Same f'.hub.registry k
  outlet : f'.outlet k = f.outlet k

/-- In one of the moves a session was opened, and its entry made. -/
def Made (ms : List Move) (p : Prepared) : Prop :=
  ∃ before table settings id files, before ++ [.prepare table settings id files] <+: ms
    ∧ (Prepared.open? table settings id files (play {} before).hub).1 = .ok p
    ∧ (play {} before).hub.registry.entry? p.handle = none
    ∧ (play {} (before ++ [.prepare table settings id files])).hub.registry.entry? p.handle
      = some { session := p.id, epoch := p.handle }

/-- **What the members of a fleet have to do with each other's entries.** -/
structure Isolated (ms : List Move) (f : Fleet) : Prop where
  /-- Each member had an entry made for itself, -/
  made : ∀ m ∈ f.members, Made ms m.opened
  /-- and no two of them have the same. -/
  apart : ∀ (i j : Nat) (m m' : Member), f.members[i]? = some m → f.members[j]? = some m' →
    m.opened.handle = m'.opened.handle → i = j
  /-- What a sink has received, the member at its entry has handed over: these are the first of
  the events that its relay delivered, and of those that are to be shown. -/
  received : ∀ l ∈ f.listeners, ∃ m ∈ f.members, m.opened.handle = l.sink.handle
    ∧ l.received <+: Course.delivered m.decided
    ∧ l.received <+: m.log.filter (Course.shown m.opened)
    ∧ ∀ e ∈ l.received, e ∈ m.log ∧ e.guid = m.opened.id
  /-- No two sinks read one entry. -/
  readers : (f.listeners.map (·.sink.handle)).Nodup
  /-- A step of a member concerns its own entry and no other: no step of its run, its relay or
  its workers, nor that it is given up. -/
  session : ∀ (i : Nat) (m : Member) (mv : Course.Move) (k : Handle), f.members[i]? = some m →
    k ≠ m.opened.handle → f.Same (f.move (.session i mv)) k
  /-- A member that is given up before it runs leaves all entries alone. -/
  discarded : ∀ (i : Nat) (k : Handle), f.Same (f.move (.discard i)) k
  /-- What a sink does concerns the entry that it reads and no other. -/
  sink : ∀ (i : Nat) (l : Listener) (deadline : Nat) (k : Handle), f.listeners[i]? = some l →
    k ≠ l.sink.handle →
    f.Same (f.move (.receive i deadline)) k ∧ f.Same (f.move (.leave i)) k
  /-- To close through a handle, even one of long ago, closes the entry of that handle. -/
  closing : ∀ h k, k ≠ h → f.Same (f.move (.closeEntry h)) k

variable {f : Fleet} {ms : List Move}

theorem Same.refl (f : Fleet) (k : Handle) : f.Same f k := ⟨.refl _ k, rfl⟩

/-- A member after a move was there before, or is the one that the move opened. -/
theorem member_moved {mv : Move} {m : Member} (hm : m ∈ (f.move mv).members) :
    (∃ m₀ ∈ f.members, m₀.opened = m.opened)
      ∨ ∃ table settings id files, mv = .prepare table settings id files
        ∧ Prepared.open? table settings id files f.hub = (.ok m.opened, (f.move mv).hub) := by
  have hset : ∀ {i : Nat} {m₀ m' : Member}, f.members[i]? = some m₀ →
      m ∈ f.members.set i m' → m'.opened = m₀.opened → ∃ m₀ ∈ f.members, m₀.opened = m.opened := by
    intro i m₀ m' hi hm ho
    rcases List.mem_or_eq_of_mem_set hm with hold | rfl
    · exact ⟨m, hold, rfl⟩
    · exact ⟨m₀, List.mem_of_getElem? hi, ho.symm⟩
  cases mv with
  | prepare table settings id files =>
      dsimp only [move] at hm ⊢
      cases ho : Prepared.open? table settings id files f.hub with
      | mk x hub =>
          rw [ho] at hm
          cases x with
          | error e => exact Or.inl ⟨m, hm, rfl⟩
          | ok p =>
              rcases List.mem_append.mp hm with hold | hnew
              · exact Or.inl ⟨m, hold, rfl⟩
              · rw [List.mem_singleton.mp hnew]
                exact Or.inr ⟨table, settings, id, files, rfl, ho⟩
  | discard i =>
      left
      dsimp only [move] at hm
      split at hm
      · exact ⟨m, hm, rfl⟩
      · rename_i m₀ hi
        split at hm
        · exact hset hi hm rfl
        · exact ⟨m, hm, rfl⟩
  | session i mv =>
      left
      dsimp only [move] at hm
      split at hm
      · exact ⟨m, hm, rfl⟩
      · rename_i m₀ hi
        split at hm
        · exact hset hi hm rfl
        · exact ⟨m, hm, rfl⟩
  | seek a =>
      left
      dsimp only [move] at hm
      split at hm <;> exact ⟨m, hm, rfl⟩
  | attach h =>
      left
      dsimp only [move] at hm
      split at hm <;> exact ⟨m, hm, rfl⟩
  | receive k deadline =>
      left
      dsimp only [move] at hm
      split at hm
      · exact ⟨m, hm, rfl⟩
      · split at hm
        · exact ⟨m, hm, rfl⟩
        · split at hm <;> exact ⟨m, hm, rfl⟩
  | leave k =>
      left
      dsimp only [move] at hm
      split at hm
      · exact ⟨m, hm, rfl⟩
      · split at hm <;> exact ⟨m, hm, rfl⟩
  | _ => exact Or.inl ⟨m, hm, rfl⟩

/-- The moves after which a member was made stay what they were. -/
theorem Made.later {p : Prepared} {ms ms' : List Move} (h : Made ms p) : Made (ms ++ ms') p := by
  obtain ⟨before, table, settings, id, files, hpre, hrest⟩ := h
  exact ⟨before, table, settings, id, files, hpre.trans (List.prefix_append _ _), hrest⟩

/-- **Every member had its entry made for itself.** -/
theorem made_play (ms : List Move) : ∀ m ∈ (play {} ms).members, Made ms m.opened := by
  induction ms using List.reverseRecOn with
  | nil => exact fun m hm => absurd hm (by simp [play])
  | append_singleton ms mv ih =>
      intro m hm
      rw [play_append] at hm
      rcases member_moved hm with ⟨m₀, hm₀, ho⟩ | ⟨table, settings, id, files, rfl, ho⟩
      · rw [← ho]
        exact (ih m₀ hm₀).later
      · obtain ⟨_, hhandle, hreg⟩ := Prepared.open?_entry ho
        have hsound := (charted_play charted_empty ms).sound
        -- the new entry is behind the others, so nothing was in its place
        refine ⟨ms, table, settings, id, files, List.prefix_rfl, congrArg Prod.fst ho, ?_, ?_⟩
        · unfold Registry.entry?
          rw [hhandle]
          exact List.getElem?_eq_none (Nat.le_refl _)
        · rw [play_append]
          have hlast : (play {} ms).play [.prepare table settings id files]
              = (play {} ms).move (.prepare table settings id files) := rfl
          rw [hlast, hreg, hhandle, Registry.entry?_opened_new, hsound.next]

/-- What a sink has received, its member has handed over. -/
theorem Charted.received (hf : f.Charted) {l : Listener} (hl : l ∈ f.listeners) :
    ∃ m ∈ f.members, m.opened.handle = l.sink.handle
      ∧ l.received <+: Course.delivered m.decided
      ∧ l.received <+: m.log.filter (Course.shown m.opened)
      ∧ ∀ e ∈ l.received, e ∈ m.log ∧ e.guid = m.opened.id := by
  obtain ⟨m, hi⟩ : ∃ m, f.members[l.sink.handle]? = some m :=
    ⟨_, List.getElem?_eq_getElem (hf.attached l hl)⟩
  have hm := List.mem_of_getElem? hi
  have hhandle := hf.places _ m hi
  have hopened := hf.courses m hm
  -- the member's outlet is the sink
  have hsink : (f.course m).outlet.received = l.received := by
    show (f.outlet m.opened.handle).received = _
    rw [hhandle, outlet_of_mem hf.readers hl]
    rfl
  obtain ⟨e, _, hfeeds⟩ := hopened.delivers.feeds
  have hdelivered := hfeeds.received
  rw [hsink] at hdelivered
  have hbooks := hopened.books.2
  have hshown : l.received <+: m.log.filter (Course.shown m.opened) :=
    hdelivered.trans ((Course.delivered_initial (Course.suppressed_iff hbooks)
      hopened.delivers.monotone).trans ((Course.decided_prefix hbooks).filter _))
  refine ⟨m, hm, hhandle, hdelivered, hshown, fun e he => ?_⟩
  have hlog := (List.mem_filter.mp (hshown.subset he)).1
  exact ⟨hlog, hopened.guid hlog⟩

theorem Charted.session (hf : f.Charted) {i : Nat} {m : Member} (mv : Course.Move) {k : Handle}
    (hi : f.members[i]? = some m) (hk : k ≠ m.opened.handle) :
    f.Same (f.move (.session i mv)) k := by
  dsimp only [move]
  rw [hi]
  dsimp only
  split
  · rename_i hown
    rw [hf.places i m hi] at hk
    exact ⟨hf.advance_same hi (Bool.and_eq_true_iff.mp hown).1 hk, rfl⟩
  · exact .refl f k

/-- What a sink asks, by a move of its outlet, is asked through its handle. -/
theorem Charted.same_turn (hf : f.Charted) {i : Nat} {l l' : Listener} (om : Outlet.Move)
    {registry : Registry} {k : Handle} (hi : f.listeners[i]? = some l)
    (hl : l'.sink.handle = l.sink.handle)
    (hmove : (l.outlet.move l.sink.handle f.hub.now f.hub.registry om).2 = registry)
    (hk : k ≠ l.sink.handle) : f.Same (f.turn i l' registry) k := by
  have hsink : ∀ s, l.outlet.sink = some s → s.handle = l.sink.handle := fun s hs =>
    congrArg Sink.handle (Listener.outlet_sink hs).symm
  obtain ⟨cs, hcs, hreg⟩ := l.outlet.move_through hsink f.hub.now f.hub.registry om
  refine ⟨?_, outlet_turn_ne hf.readers hi hl hk⟩
  show f.hub.registry.Same registry k
  rw [← hmove, hreg]
  exact Registry.same_calls hf.sound hcs hk

theorem Charted.same_receive (hf : f.Charted) {i : Nat} {l : Listener} (deadline : Nat)
    {k : Handle} (hi : f.listeners[i]? = some l) (hk : k ≠ l.sink.handle) :
    f.Same (f.move (.receive i deadline)) k := by
  dsimp only [move]
  rw [hi]
  dsimp only
  split
  · exact .refl f k
  · rename_i hpresent
    have hdropped : l.dropped = false := by simpa using hpresent
    split
    · rename_i a s registry hr
      exact hf.same_turn (.receive deadline) hi (Sink.receive?_some hr).1
        (congrArg Prod.snd (Listener.outlet_receive hdropped hr)) hk
    · exact .refl f k

theorem Charted.same_leave (hf : f.Charted) {i : Nat} {l : Listener} {k : Handle}
    (hi : f.listeners[i]? = some l) (hk : k ≠ l.sink.handle) :
    f.Same (f.move (.leave i)) k := by
  dsimp only [move]
  rw [hi]
  dsimp only
  split
  · exact .refl f k
  · rename_i hpresent
    have hdropped : l.dropped = false := by simpa using hpresent
    exact hf.same_turn .drop hi rfl (congrArg Prod.snd (Listener.outlet_leave hdropped)) hk

/-- **Sessions are kept apart.** However sessions, sinks, closes and deadlines take turns around
one registry, and however often an id is opened again while older runs of it are at work: a
sink receives what the run has told whose opening made the entry, and no step of another run
closes, reads or fills that entry. -/
theorem fleet_isolated (ms : List Move) : Isolated ms (play {} ms) := by
  have hf := charted_play charted_empty ms
  refine ⟨made_play ms, ?_, fun l hl => hf.received hl, hf.readers, ?_, ?_, ?_, ?_⟩
  · intro i j m m' hi hj hh
    rw [← hf.places i m hi, hh, hf.places j m' hj]
  · intro i m mv k hi hk
    exact hf.session mv hi hk
  · intro i k
    dsimp only [move]
    split
    · exact .refl _ k
    · split
      · exact ⟨.refl _ k, rfl⟩
      · exact .refl _ k
  · intro i l deadline k hi hk
    exact ⟨hf.same_receive deadline hi hk, hf.same_leave hi hk⟩
  · intro h k hk
    exact ⟨Registry.same_closeEntry hf.sound hk, rfl⟩

/-- An id whose entry was closed is opened again while its older run is at work, and a sink comes.
It receives what the newer run tells, and when the older run is given up the newer entry stays. -/
example :
    let f : Submission := { fileName := "a.txt", declared := none, size := 0, spool := 0 }
    let begin (i : Nat) : List Move :=
      .prepare {} {} (some "s") [f] :: .session i .start
        :: List.replicate 5 (.session i (.act .run))
    let fleet := play {} (List.flatten [begin 0, [.close "s"], begin 1,
      [.seek { id := "s", giveUp := 0, next := 0 }],
      List.replicate 4 (.session 0 (.act .relay)),
      (List.replicate 2
        [.session 1 (.act .relay), .session 1 (.act .relay), .receive 0 5]).flatten,
      [.session 0 .abandon]])
    fleet.members.map (·.opened.handle) = [0, 1]
      ∧ fleet.members.map (·.decided.map Prod.snd) = [[.closed, .closed], [.delivered, .delivered]]
      ∧ fleet.listeners.map Listener.received = (fleet.members.drop 1).map Member.log
      ∧ fleet.hub.registry.lookup? "s" = some 1 := by
  decide

end Fleet
end Intake
