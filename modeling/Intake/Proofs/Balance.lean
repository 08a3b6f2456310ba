import Intake.Proofs.Mirror

/-!
# The balance of a session

Nothing that a session hands over is refused, however far behind its relay is, since the queue
has room for a whole log and more. So when the run has returned, the counts of its report
account for each event of a whole log once. How many of them were suppressed depends on the
filter alone: it lets through all, or of the events of a whole log the two milestones of each
file and the last event. The copies of a mirror are as many as the events that were not
suppressed.
-/

namespace Intake

/-! ## Counting events -/

/-- Of the three events of a file's worker one is hidden where only milestones are shown. -/
theorem Line.countP_triple (guid : String) (l : Line) :
    (l.triple guid).countP (fun e => !ProgressFilter.milestonesOnly.admits e) = 1 := by
  unfold triple judged
  cases l.verdict <;> rfl

theorem countP_triples (guid : String) (lines : List Line) :
    (lines.map (Line.triple guid)).flatten.countP
      (fun e => !ProgressFilter.milestonesOnly.admits e) = lines.length := by
  induction lines with
  | nil => rfl
  | cons l ls ih =>
      rw [List.map_cons, List.flatten_cons, List.countP_append, ih, Line.countP_triple,
        List.length_cons]
      omega

/-- That a file was queued is hidden. -/
theorem countP_queued (guid : String) (lines : List Line) :
    (lines.map (Line.queued guid)).countP
      (fun e => !ProgressFilter.milestonesOnly.admits e) = lines.length := by
  rw [List.countP_map]
  exact List.countP_eq_length.mpr fun _ _ => rfl

/-- **What a filter hides of a whole log**: nothing, or all but the milestones. -/
theorem wholeLog_hidden {guid : String} {lines : List Line} {log : List Event}
    (h : WholeLog guid lines log) (streamProgress : Bool) :
    (log.countP fun e => !(ProgressFilter.ofStreamProgress streamProgress).admits e)
      = if streamProgress then 0 else 2 * lines.length + 1 := by
  cases streamProgress with
  | true =>
      rw [if_pos rfl]
      have hall : ∀ e, (ProgressFilter.ofStreamProgress true).admits e = true := fun _ => rfl
      exact List.countP_eq_zero.mpr fun e _ => by simp [hall e]
  | false =>
      obtain ⟨mid, hmid, hlog⟩ := h
      rw [hlog, if_neg (by simp)]
      show List.countP (fun e => !ProgressFilter.milestonesOnly.admits e) _ = _
      -- the start, and of each file that it was queued and that it was begun
      rw [List.countP_append, List.countP_append, List.countP_cons, countP_queued,
        hmid.perm.countP_eq, countP_triples]
      show lines.length + 1 + lines.length + 0 = _
      omega

namespace Run

/-- A run that hands something over is not through yet. -/
theorem Acted.unfinished {r r' : Run} {hub hub' : Hub} {a : Action} {handed : List Event}
    {decides : List (Event × DeliveryOutcome)} {p : Prepared} {log : List Event} {e : Event}
    (ha : r.Acted hub a handed decides hub' r') (hl : Logged p r log) (he : e ∈ handed) :
    ¬ r.Quiet := by
  cases ha with
  | announced hp => exact not_quiet (by rw [hp]; rfl)
  | queued hp _ => exact not_quiet (by rw [hp]; rfl)
  | submitted hp => exact not_quiet (by rw [hp]; rfl)
  | @worked i w s hi hs =>
      have hm : w ∈ r.workers := List.mem_of_getElem? hi
      exact not_quiet_of_running hm (Worker.step?_tells (hl.consistent w hm) hs).running
  | _ => exact absurd he (by simp)

end Run

namespace Course

/-! ## Sessions without a mirror -/

/-- The mirror of a session, if it has one. -/
def mirror? (c : Course) : Option Mirror :=
  match c.stage with
  | .prepared q => q.mirror
  | .running r => r.relay.mirror

variable {p : Prepared} {c : Course}

theorem mirror?_move {m : Move} (h : c.mirror? = none) (ht : m ≠ .takeMirror) :
    (c.move m).mirror? = none := by
  unfold mirror? at h
  cases hs : c.stage with
  | prepared q =>
      simp only [hs] at h
      cases m with
      | takeMirror => exact absurd rfl ht
      | other call =>
          dsimp only [move]
          split <;> simp only [mirror?, hs, h]
      | _ => simp [mirror?, move, hs, h, Run.start, Relay.start]
  | running r =>
      simp only [hs] at h
      cases m with
      | takeMirror => exact absurd rfl ht
      | act a =>
          simp only [mirror?, move, hs]
          cases ha : r.act? a c.hub with
          | none => simp only [hs, h]
          | some x =>
              have hcopies := (Run.act_acted ha).copies
              rw [h] at hcopies
              exact hcopies
      | abandon =>
          simp only [mirror?, move, hs]
          unfold Run.abandon
          split <;> exact h
      | popMirror => simp [mirror?, move, hs, h, Relay.popMirror?]
      | abandonMirror => simp [mirror?, move, hs, h, Relay.abandonMirror]
      | other call =>
          dsimp only [move]
          split <;> simp only [mirror?, hs, h]
      | _ => simp [mirror?, move, hs, h]

theorem mirror?_play {ms : List Move} (h : c.mirror? = none) (ht : .takeMirror ∉ ms) :
    (c.play ms).mirror? = none := by
  induction ms generalizing c with
  | nil => exact h
  | cons m ms ih =>
      obtain ⟨hne, ht⟩ := not_or.mp (List.mem_cons.not.mp ht)
      exact ih (mirror?_move h (Ne.symm hne)) ht

/-- A session is opened without a mirror. -/
theorem mirror?_open {table : ExtractorTable} {settings : SessionSettings}
    {id : Option String} {files : List Submission} {hub hub' : Hub}
    (ho : Prepared.open? table settings id files hub = (.ok p, hub')) :
    (of p hub').mirror? = none := by
  obtain ⟨_, _, hp⟩ := open?_ok ho
  rw [hp]
  rfl

/-! ## What follows -/

/-- **Nothing is refused.** What a step hands over finds the queue open, and room in it. -/
theorem accepted {r r' : Run} {hub hub' : Hub} {a : Run.Action} {log : List Event}
    {decided : List (Event × DeliveryOutcome)} (hl : Logged p r log)
    (hb : Booked p r log decided) (ha : r.act? a hub = some (hub', r')) {e : Event}
    (he : e ∈ r.handed hub a) : (r.relay.emit e).1 = true := by
  have hquiet := (Run.act_acted ha).unfinished hl he
  obtain ⟨_, _, _, hend, hwait, hroom⟩ := hb.room hquiet hl.length_le
  obtain ⟨mirror, hemit⟩ := Relay.emit_eq hend hwait hroom e
  rw [hemit]

/-- What a session that has returned suppressed is what its filter hides of its log. -/
theorem countP_suppressed {decided : List (Event × DeliveryOutcome)} {log : List Event}
    (hall : decided.map Prod.fst = log)
    (hsup : ∀ d ∈ decided, d.2 = .suppressed ↔ shown p d.1 = false) :
    (decided.countP fun d => d.2 = .suppressed) = log.countP fun e => !shown p e := by
  rw [← hall, List.countP_map]
  refine List.countP_congr ?_
  intro d hd
  simpa using hsup d hd

/-- **The counts of a report**, of which each event of a whole log is one. -/
structure Balanced (p : Prepared) (log : List Event) (stats : RelayStats) : Prop where
  total : stats.delivered + stats.dropped + stats.suppressed = 4 * p.files.length + 2
  suppressed : stats.suppressed
    = if p.settings.streamProgress then 0 else 2 * p.files.length + 1
  shown : stats.delivered + stats.dropped = (log.filter (shown p)).length

theorem balanced {r : Run} {log : List Event} {decided : List (Event × DeliveryOutcome)}
    (hl : Logged p r log) (hb : Booked p r log decided) (hp : r.phase = .returned) :
    Balanced p log r.report.relay := by
  obtain ⟨_, _, hacc, _, _⟩ := hb.accounts
  have hlog := hb.decided_returned hp
  obtain ⟨hnames, hwhole⟩ := hl.whole (by rw [hp]; simp [RunPhase.rank])
  have hfiles := length_of_names hnames
  have hsup : ∀ d ∈ decided, d.2 = .suppressed ↔ shown p d.1 = false := by
    unfold shown
    rw [← hb.filter]
    exact hacc.suppressed
  -- the counts are those of what was decided, which is the log
  have htotal : r.report.relay.delivered + r.report.relay.dropped + r.report.relay.suppressed
      = log.length := by
    show r.relay.finalStats.delivered + r.relay.finalStats.dropped
      + r.relay.finalStats.suppressed = _
    rw [hb.finalStats hp, ← hlog, List.length_map]
    exact (RelayStats.total_eq decided {}).trans (Nat.zero_add _)
  have hhidden : r.report.relay.suppressed = log.countP fun e => !shown p e := by
    show r.relay.finalStats.suppressed = _
    rw [hb.finalStats hp, ← countP_suppressed hlog hsup]
    exact (RelayStats.suppressed_eq decided {}).trans (Nat.zero_add _)
  have hparts : log.length
      = log.countP (shown p) + log.countP fun e => !shown p e := by
    simpa using List.length_eq_countP_add_countP (shown p) (l := log)
  refine ⟨?_, ?_, ?_⟩
  · rw [htotal, wholeLog_length hwhole, hfiles]
  · rw [hhidden, ← hfiles]
    exact wholeLog_hidden hwhole p.settings.streamProgress
  · rw [← List.countP_eq_length_filter]
    omega

/-- **What a session's report counts**, and what it rests on: -/
structure Accounted (p : Prepared) (hub : Hub) (ms : List Move) : Prop where
  /-- at no time is anything refused that is handed over, and -/
  accepted : ∀ r a hub' r', ((of p hub).play ms).stage = .running r →
    r.act? a ((of p hub).play ms).hub = some (hub', r') →
    ∀ e ∈ r.handed ((of p hub).play ms).hub a, (r.relay.emit e).1 = true
  /-- when the run has returned, every event is accounted for once. -/
  balanced : ∀ r, ((of p hub).play ms).stage = .running r → r.phase = .returned →
    Balanced p ((of p hub).play ms).log r.report.relay
  /-- A mirror that was taken before the start has copied all that was delivered or dropped, if
  its reader has not gone away, whether it has read or not. -/
  mirrored : ∀ r, ((of p hub).play ms).stage = .running r → r.phase = .returned →
    ∀ before after, ms = before ++ [.takeMirror] ++ after → .start ∉ before →
      .takeMirror ∉ after → .abandonMirror ∉ after →
      r.report.relay.mirrored = r.report.relay.delivered + r.report.relay.dropped
  /-- Where no mirror was taken, nothing was copied. -/
  unmirrored : ∀ r, ((of p hub).play ms).stage = .running r → .takeMirror ∉ ms →
    r.report.relay.mirrored = 0

theorem report_mirrored (r : Run) :
    r.report.relay.mirrored = (r.relay.mirror.map Mirror.copied).getD 0 := rfl

/-- **A session's counts add up**, whatever its extractors, its sink and the clock do, and
however far behind its relay is. -/
theorem session_balanced {table : ExtractorTable} {settings : SessionSettings}
    {id : Option String} {files : List Submission} {hub hub' : Hub}
    (ho : Prepared.open? table settings id files hub = (.ok p, hub')) (ms : List Move) :
    Accounted p hub' ms := by
  obtain ⟨hl, hb⟩ := books_play p hub' ms
  have hbalanced : ∀ r, ((of p hub').play ms).stage = .running r → r.phase = .returned →
      Balanced p ((of p hub').play ms).log r.report.relay :=
    fun r hs hp => balanced (hl.running hs) (hb.running hs) hp
  refine ⟨?_, hbalanced, ?_, ?_⟩
  · intro r a hub₁ r' hs ha e he
    exact accepted (hl.running hs) (hb.running hs) ha he
  · intro r hs hp before after hms hstart htake hab
    have hmirrors := mirrors_since p hub' hstart htake hab
    rw [← play_append, ← hms] at hmirrors
    obtain ⟨m, hm, _, hcopies⟩ := hmirrors.running hs
    rw [(hbalanced r hs hp).shown, report_mirrored, hm]
    exact hcopies.copied
  · intro r hs htake
    have hnone := mirror?_play (mirror?_open ho) htake
    simp only [mirror?, hs] at hnone
    rw [report_mirrored, hnone]
    rfl

/-- A session of two files that are not there, which shows milestones only. Its relay does
nothing until all workers are done, and nobody reads, neither the entry nor the mirror. -/
theorem session_balanced_backlog :
    let files : List Submission := [
      { fileName := "a.txt", declared := none, size := 0, spool := 0 },
      { fileName := "b.txt", declared := none, size := 0, spool := 1 }]
    let settings : SessionSettings := { streamProgress := false }
    let p : Prepared := { id := "s", handle := 0, files, table := {}, settings }
    let hub : Hub := { registry := ({} : Registry).opened "s", serial := 1 }
    let ms : List Move := List.flatten [[.takeMirror], [.start], List.replicate 7 (.act .run),
      List.replicate 5 (.act (.worker 0)), List.replicate 5 (.act (.worker 1)),
      List.replicate 3 (.act .run), [.wait 1000000], List.replicate 15 (.act .relay),
      [.act .run, .act .run, .act .relay, .act .run]]
    Prepared.open? {} settings (some "s") files {} = (.ok p, hub)
      ∧ ((of p hub).play ms).run?.map (fun r => (r.phase, r.report.relay))
        = some (.returned, { delivered := 0, dropped := 5, suppressed := 5, mirrored := 5 })
      ∧ Accounted p hub ms := by
  intro files settings p hub ms
  have ho : Prepared.open? {} settings (some "s") files {} = (.ok p, hub) := rfl
  exact ⟨ho, by decide +kernel, session_balanced ho ms⟩

end Course
end Intake
