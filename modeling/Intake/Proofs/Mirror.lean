import Intake.Proofs.Delivery

/-!
# The mirror of a session

A step that hands an event over gives the mirror its copy first. The mirror has more room than
there are events, so no copy is skipped even if nobody reads, whatever the relay waits for. So
between steps, what the mirror's reader has received and what is there for it are the events of the
log that are to be shown (`Course.Mirrors`). What can be seen in the middle of a step is said in
`Intake.Proofs.Reflection`.
-/

namespace Intake

/-! ## Copies -/

/-- **What a mirror and its reader have of some events.** -/
structure Mirror.Copies (m : Mirror) (seen shown : List Event) : Prop where
  readable : m.readable = true
  /-- What the reader has received and what is there for it are the events. -/
  flow : seen ++ m.buffer = shown
  copied : m.copied = shown.length

namespace Mirror

variable {m m' : Mirror} {seen shown : List Event}

theorem Copies.start (capacity : Nat) : ({ capacity } : Mirror).Copies [] [] :=
  ⟨rfl, rfl, rfl⟩

theorem foldl_capacity (m : Mirror) (es : List Event) :
    (es.foldl copy m).capacity = m.capacity := by
  induction es generalizing m with
  | nil => rfl
  | cons e es ih =>
      rw [List.foldl_cons, ih]
      unfold copy
      split <;> rfl

/-- **Where there is room for all events, each is copied.** -/
theorem Copies.copy (h : m.Copies seen shown) {e : Event} (hroom : shown.length < m.capacity) :
    (m.copy e).Copies seen (shown ++ [e]) := by
  have hlen : m.buffer.length ≤ shown.length := by
    rw [← h.flow, List.length_append]
    omega
  have hfits : (m.readable && m.buffer.length < m.capacity) = true := by
    rw [h.readable]
    simpa using Nat.lt_of_le_of_lt hlen hroom
  unfold Mirror.copy
  rw [if_pos hfits]
  refine ⟨h.readable, ?_, ?_⟩
  · rw [← h.flow, List.append_assoc]
  · rw [List.length_append, ← h.copied]
    rfl

theorem Copies.copies (h : m.Copies seen shown) {es : List Event}
    (hroom : (shown ++ es).length ≤ m.capacity) :
    (es.foldl Mirror.copy m).Copies seen (shown ++ es) := by
  induction es generalizing m shown with
  | nil =>
      rw [List.append_nil]
      exact h
  | cons e es ih =>
      rw [← List.singleton_append, ← List.append_assoc] at hroom ⊢
      have hfits : shown.length < m.capacity := by
        rw [List.length_append, List.length_append, List.length_singleton] at hroom
        omega
      refine ih (h.copy hfits) ?_
      rw [← foldl_capacity m [e]] at hroom
      exact hroom

/-- The reader takes the first copy that is there. -/
theorem Copies.pop (h : m.Copies seen shown) {e : Event} (hp : m.pop? = some (e, m')) :
    m'.Copies (seen ++ [e]) shown ∧ m'.capacity = m.capacity := by
  unfold pop? at hp
  split at hp
  · exact absurd hp (by simp)
  · rename_i hb
    cases hp
    refine ⟨⟨h.readable, ?_, h.copied⟩, rfl⟩
    rw [List.append_assoc, List.singleton_append, ← h.flow, hb]

end Mirror

/-! ## What a step copies -/

namespace Relay

theorem reflect_mirror (r : Relay) (e : Event) :
    (r.reflect e).mirror
      = r.mirror.map fun m => ([e].filter r.filter.admits).foldl Mirror.copy m := by
  unfold reflect
  by_cases ha : r.filter.admits e = true
  · rw [if_pos ha, List.filter_cons_of_pos ha]
    rfl
  · rw [if_neg ha, List.filter_cons_of_neg ha]
    exact Option.map_id'.symm

theorem emit_mirror (r : Relay) (e : Event) : (r.emit e).2.mirror = (r.reflect e).mirror := by
  unfold emit enqueue
  split <;> rfl

theorem give_mirror (r : Relay) (c : RelayCommand) : (r.give c).mirror = r.mirror := by
  unfold give
  split
  · rfl
  · split <;> rfl

theorem submit_mirror (r : Relay) (e : Event) (ticket : Nat) :
    (r.submit e ticket).mirror = (r.reflect e).mirror :=
  (r.reflect e).give_mirror _

theorem pop?_mirror {r r' : Relay} {c : RelayCommand} (h : r.pop? = some (c, r')) :
    r'.mirror = r.mirror := by
  unfold pop? at h
  split at h
  · exact absurd h (by simp)
  · split at h <;> cases h <;> rfl

end Relay

/-- **A step copies what it hands over**, as far as it may be shown, and nothing else. -/
theorem Run.Acted.copies {r r' : Run} {hub hub' : Hub} {a : Action} {handed : List Event}
    {decides : List (Event × DeliveryOutcome)} (ha : r.Acted hub a handed decides hub' r') :
    r'.relay.mirror
      = r.relay.mirror.map fun m => (handed.filter r.relay.filter.admits).foldl Mirror.copy m := by
  have hnone : r.relay.mirror
      = r.relay.mirror.map fun m => (([] : List Event).filter r.relay.filter.admits).foldl
        Mirror.copy m := Option.map_id'.symm
  cases ha with
  | announced _ => exact (Relay.emit_mirror _ _).trans (Relay.reflect_mirror _ _)
  | queued _ _ => exact (Relay.emit_mirror _ _).trans (Relay.reflect_mirror _ _)
  | submitted _ => exact (Relay.submit_mirror _ _ _).trans (Relay.reflect_mirror _ _)
  | stopped _ => exact (Relay.give_mirror _ _).trans hnone
  | begun _ _ hp _ _ => exact (Relay.pop?_mirror hp).trans hnone
  | suppressed _ _ hp _ _ => exact (Relay.pop?_mirror hp).trans hnone
  | halted _ _ hp _ => exact (Relay.pop?_mirror hp).trans hnone
  | @worked i w s _ _ =>
      unfold applyStep
      cases s.event with
      | none => cases s.leaves <;> exact hnone
      | some e =>
          have hemit := (Relay.emit_mirror r.relay e).trans (r.relay.reflect_mirror e)
          cases s.leaves <;> exact hemit
  | _ => exact hnone

namespace Course

/-- What the mirror's reader receives by a move. -/
def watched (c : Course) : Move → List Event
  | .popMirror =>
    match c.stage with
    | .prepared _ => []
    | .running r => (r.relay.popMirror?.map Prod.fst).toList
  | _ => []

/-- What the mirror's reader receives in a course, in order. -/
def seen : Course → List Move → List Event
  | _, [] => []
  | c, m :: ms => c.watched m ++ seen (c.move m) ms

/-- **The invariant of a session and its mirror**, as long as the mirror's reader is there. -/
def Mirrors (p : Prepared) (c : Course) (seen : List Event) : Prop :=
  match c.stage with
  | .prepared q => q.mirror = some { capacity := queueCapacity p.files.length } ∧ seen = []
  | .running r => ∃ m, r.relay.mirror = some m ∧ m.capacity = queueCapacity p.files.length
    ∧ m.Copies seen (c.log.filter (shown p))

variable {p : Prepared} {c : Course} {before : List Event}

theorem Mirrors.prepared (h : c.Mirrors p before) {q : Prepared} (hs : c.stage = .prepared q) :
    q.mirror = some { capacity := queueCapacity p.files.length } ∧ before = [] := by
  unfold Mirrors at h
  rw [hs] at h
  exact h

theorem Mirrors.running (h : c.Mirrors p before) {r : Run} (hs : c.stage = .running r) :
    ∃ m, r.relay.mirror = some m ∧ m.capacity = queueCapacity p.files.length
      ∧ m.Copies before (c.log.filter (shown p)) := by
  unfold Mirrors at h
  rw [hs] at h
  exact h

/-- A step of the session. There is room for a copy of anything that is still handed over. -/
theorem Mirrors.acted {r r' : Run} {a : Run.Action} {handed : List Event}
    {decides : List (Event × DeliveryOutcome)} {hub : Hub} (h : c.Mirrors p before)
    (hl : Logged p r c.log) (hb : Booked p r c.log c.decided) (hs : c.stage = .running r)
    (ha : r.Acted c.hub a handed decides hub r') :
    Mirrors p { c with
      hub
      stage := .running r'
      log := c.log ++ handed
      decided := c.decided ++ decides } before := by
  obtain ⟨m, hm, hcap, hcopies⟩ := h.running hs
  have hfilter : r.relay.filter.admits = shown p := by
    funext e
    unfold shown
    rw [hb.filter]
  have hmirror := ha.copies
  rw [hm, hfilter, Option.map_some] at hmirror
  refine ⟨_, hmirror, (m.foldl_capacity _).trans hcap, ?_⟩
  show Mirror.Copies _ before ((c.log ++ handed).filter (shown p))
  rw [List.filter_append]
  refine hcopies.copies ?_
  -- the log after the step is no longer than a whole one
  have hlen := (hl.step ha).length_le
  have hshown := List.length_filter_le (shown p) (c.log ++ handed)
  rw [List.filter_append] at hshown
  rw [hcap]
  unfold queueCapacity
  omega

/-- The mirror's reader takes a copy, if there is one. -/
theorem Mirrors.popped (h : c.Mirrors p before) :
    (c.move .popMirror).Mirrors p (before ++ c.watched .popMirror) := by
  cases hs : c.stage with
  | prepared q =>
      simp only [move, watched, hs, List.append_nil]
      exact h
  | running r =>
      obtain ⟨m, hm, hcap, hcopies⟩ := h.running hs
      have hbind : r.relay.mirror.bind Mirror.pop? = m.pop? := by
        rw [hm, Option.bind_some]
      simp only [move, watched, hs, Relay.popMirror?, hbind]
      cases hp : m.pop? with
      | none =>
          simp only [Option.map_none, Option.toList_none, List.append_nil]
          exact h
      | some x =>
          obtain ⟨e, m'⟩ := x
          obtain ⟨hcopies', hcap'⟩ := hcopies.pop hp
          exact ⟨m', rfl, hcap'.trans hcap, hcopies'⟩

/-- Other moves give the reader nothing. -/
theorem watched_eq_nil {m : Move} (hp : m ≠ .popMirror) : c.watched m = [] := by
  cases m with
  | popMirror => exact absurd rfl hp
  | _ => rfl

theorem Mirrors.unread (h : c.Mirrors p before) (hl : c.Logs p) (hb : c.Books p) {m : Move}
    (hp : m ≠ .popMirror) (ht : m ≠ .takeMirror) (hab : m ≠ .abandonMirror) :
    (c.move m).Mirrors p before := by
  cases m with
  | takeMirror => exact absurd rfl ht
  | abandonMirror => exact absurd rfl hab
  | popMirror => exact absurd rfl hp
  | start =>
      dsimp only [move]
      split
      · rename_i q hs
        obtain ⟨hm, hnil⟩ := h.prepared hs
        refine ⟨_, hm, rfl, ?_⟩
        show Mirror.Copies _ before (c.log.filter (shown p))
        rw [hnil, (hl.prepared hs).2.2]
        exact Mirror.Copies.start _
      · exact h
  | act a =>
      dsimp only [move]
      split
      · exact h
      · rename_i r hs
        split
        · exact h
        · rename_i ha
          exact h.acted (hl.running hs) (hb.running hs) hs (Run.act_acted ha)
  | abandon =>
      dsimp only [move]
      split
      · exact h
      · rename_i r hs
        have hmirror : (r.abandon c.hub).2.relay.mirror = r.relay.mirror := by
          unfold Run.abandon
          split <;> rfl
        obtain ⟨m, hm, hrest⟩ := h.running hs
        exact ⟨m, hmirror.trans hm, hrest⟩
  | behave table =>
      dsimp only [move]
      split
      · rename_i q hs
        have hq := h.prepared hs
        exact hq
      · rename_i r hs
        have hr := h.running hs
        exact hr
  | other call =>
      dsimp only [move]
      split <;> exact h
  | reader m => exact h
  | wait ms => exact h
  | renew => exact h
  | outside spools gates serial => exact h

/-- **Preserved by every move**, with what the reader receives by it. -/
theorem mirrors_move (hl : c.Logs p) (hb : c.Books p) (h : c.Mirrors p before) {m : Move}
    (ht : m ≠ .takeMirror) (hab : m ≠ .abandonMirror) :
    (c.move m).Mirrors p (before ++ c.watched m) := by
  by_cases hp : m = .popMirror
  · subst hp
    exact h.popped
  · rw [watched_eq_nil hp, List.append_nil]
    exact h.unread hl hb hp ht hab

theorem mirrors_play {ms : List Move} (hl : c.Logs p) (hb : c.Books p)
    (h : c.Mirrors p before) (ht : .takeMirror ∉ ms) (hab : .abandonMirror ∉ ms) :
    (c.play ms).Mirrors p (before ++ c.seen ms) := by
  induction ms generalizing c before with
  | nil =>
      show c.Mirrors p (before ++ [])
      rw [List.append_nil]
      exact h
  | cons m ms ih =>
      obtain ⟨hne, ht⟩ := not_or.mp (List.mem_cons.not.mp ht)
      obtain ⟨hne', hab⟩ := not_or.mp (List.mem_cons.not.mp hab)
      have hm := c.move_moved m
      have hmove := mirrors_move hl hb h (Ne.symm hne) (Ne.symm hne')
      have hrest := ih (logs_moved hl hm) (books_moved hl hb hm) hmove ht hab
      rw [List.append_assoc] at hrest
      exact hrest

/-! ## When a mirror is taken -/

/-- A session stays prepared until it is started. -/
theorem prepared_play {ms : List Move} {q : Prepared} (hs : c.stage = .prepared q)
    (hstart : .start ∉ ms) : ∃ q', (c.play ms).stage = .prepared q' := by
  induction ms generalizing c q with
  | nil => exact ⟨q, hs⟩
  | cons m ms ih =>
      obtain ⟨hne, hstart⟩ := not_or.mp (List.mem_cons.not.mp hstart)
      have hmove : ∃ q', (c.move m).stage = .prepared q' := by
        cases m with
        | start => exact absurd rfl hne
        | takeMirror => exact ⟨q.takeMirror, by simp only [move, hs]⟩
        | act a => exact ⟨q, by simp only [move, hs]⟩
        | abandon => exact ⟨q, by simp only [move, hs]⟩
        | popMirror => exact ⟨q, by simp only [move, hs]⟩
        | abandonMirror => exact ⟨_, by simp only [move, hs]; rfl⟩
        | behave table => exact ⟨_, by simp only [move, hs]; rfl⟩
        | other call => exact ⟨q, by simp only [move]; split <;> exact hs⟩
        | reader m => exact ⟨q, hs⟩
        | wait ms => exact ⟨q, hs⟩
        | renew => exact ⟨q, hs⟩
        | outside spools gates serial => exact ⟨q, hs⟩
      obtain ⟨q', hq'⟩ := hmove
      exact ih hq' hstart

theorem mirrors_taken (hl : c.Logs p) {q : Prepared} (hs : c.stage = .prepared q) :
    (c.move .takeMirror).Mirrors p [] := by
  simp only [move, hs]
  refine ⟨?_, rfl⟩
  show some _ = some _
  rw [(hl.prepared hs).2.1]

/-- **A mirror that is taken before the start shows everything**, as long as its reader is
there. -/
theorem mirrors_since (p : Prepared) (hub : Hub) {before ms : List Move}
    (hstart : .start ∉ before) (htake : .takeMirror ∉ ms) (hab : .abandonMirror ∉ ms) :
    (((of p hub).play (before ++ [.takeMirror])).play ms).Mirrors p
      (((of p hub).play (before ++ [.takeMirror])).seen ms) := by
  obtain ⟨q, hq⟩ := prepared_play (c := of p hub) rfl hstart
  have htaken : ((of p hub).play (before ++ [.takeMirror])).Mirrors p [] := by
    rw [play_append]
    exact mirrors_taken (books_play p hub before).1 hq
  obtain ⟨hl, hb⟩ := books_play p hub (before ++ [.takeMirror])
  exact mirrors_play hl hb htaken htake hab

end Course
end Intake
