import Intake.Proofs.Accounts

/-!
# The history of a session

The theorem of this module says what a session tells from beginning to end, whatever its
extractors do, whoever reads, and in whichever order its parties take their steps. It also ties
what was told to what the session reports in the end.
-/

namespace Intake

/-- A line says of a file what the report of its task says. -/
def Line.Agrees (l : Line) (t : TaskReport) : Prop :=
  t.id = l.uuid ∧ t.fileName = l.fileName
    ∧ (t.outcome = some .success ∧ l.verdict = none
      ∨ t.outcome ≠ some .success ∧ ∃ reason, l.verdict = some reason ∧ t.reason = some reason)

theorem TaskFailure.outcome_ne_success (f : TaskFailure) : f.outcome ≠ .success := by
  cases f <;> simp [TaskFailure.outcome]

theorem FileTask.IsJudged.agrees {t : FileTask} (h : t.IsJudged) : t.line.Agrees t.report := by
  refine ⟨rfl, rfl, ?_⟩
  rcases h with ⟨ho, hr⟩ | ⟨f, ho, hr⟩
  · exact Or.inl ⟨ho, hr⟩
  · refine Or.inr ⟨?_, f.message, hr, hr⟩
    intro hs
    exact f.outcome_ne_success (Option.some.inj (ho.symm.trans hs))

/-- The last event of a whole log is the only one of its kind, and all are of the session. -/
theorem wholeLog_last {guid : String} {lines : List Line} {log : List Event}
    (h : WholeLog guid lines log) : ∃ front, log = front ++ [Event.ofSession guid .completed]
      ∧ ∀ e ∈ front, e.guid = guid ∧ e.state.isTerminal = false := by
  obtain ⟨mid, hmid, hlog⟩ := h
  refine ⟨_, hlog, ?_⟩
  intro e he
  rcases List.mem_append.mp he with he | he
  · rcases List.mem_cons.mp he with he | he
    · rw [he]
      exact ⟨rfl, rfl⟩
    · obtain ⟨l, _, heq⟩ := List.mem_map.mp he
      rw [← heq]
      exact ⟨rfl, rfl⟩
  · obtain ⟨strand, hstrand, hes⟩ := hmid.mem he
    obtain ⟨l, _, heq⟩ := List.mem_map.mp hstrand
    rw [← heq] at hes
    exact Line.of_mem_triple hes

theorem wholeLog_guid {guid : String} {lines : List Line} {log : List Event}
    (h : WholeLog guid lines log) {e : Event} (he : e ∈ log) : e.guid = guid := by
  obtain ⟨front, hlog, hfront⟩ := wholeLog_last h
  rw [hlog] at he
  rcases List.mem_append.mp he with he | he
  · exact (hfront e he).1
  · rw [List.mem_singleton.mp he]
    rfl

namespace Course

/-- **What a session has told at any time of its course.** -/
structure Told (p : Prepared) (c : Course) : Prop where
  /-- The log is a beginning of a whole one that has a line for each file. -/
  begun : ∃ lines whole, lines.map Line.fileName = p.files.map Submission.fileName
    ∧ WholeLog p.id lines whole ∧ c.log <+: whole
  guid : ∀ e ∈ c.log, e.guid = p.id
  /-- Nothing that is handed over is refused: it was decided, or is in the relay's queue. -/
  queued : ∀ r, c.stage = .running r →
    c.log = c.decided.map Prod.fst ++ r.relay.commands.filterMap RelayCommand.event?
  /-- When the run has returned, the log is whole. The lines are those of the run's tasks, and
  say of each file what the run reports. -/
  returned : ∀ r, c.stage = .running r → r.phase = .returned →
    ∃ lines, WholeLog p.id lines c.log
      ∧ c.log.length = 4 * p.files.length + 2
      ∧ lines.map Line.fileName = p.files.map Submission.fileName
      ∧ lines.map Line.uuid = r.workers.map (·.task.id)
      ∧ List.Forall₂ Line.Agrees lines r.report.tasks

/-- When the run has come to its last event, the lines are those of its tasks. -/
theorem agrees_report {p : Prepared} {r : Run} {log : List Event} (h : Logged p r log)
    (hr : 5 ≤ r.phase.rank) :
    List.Forall₂ Line.Agrees (r.workers.map (·.task.line)) r.report.tasks := by
  show List.Forall₂ Line.Agrees _ (r.workers.map Worker.report)
  rw [List.forall₂_map_left_iff, List.forall₂_map_right_iff, List.forall₂_same]
  intro w hw
  obtain ⟨_, hreport, hjudged⟩ := Worker.told_finished (h.consistent w hw) (h.allOver hr w hw)
  rw [hreport]
  exact hjudged.agrees

/-- **The log of a session.** Whatever its extractors do, whoever reads or closes, and however
its run, its relay and its workers take turns: the start of the upload, the files in the order
of submission, then of each file the start, the verdict and the end, in any weaving, then that
the session is completed. -/
theorem session_log (p : Prepared) (hub : Hub) (ms : List Move) :
    Told p ((of p hub).play ms) := by
  obtain ⟨hl, hb⟩ := books_play p hub ms
  generalize (of p hub).play ms = c at hl hb
  have hbegun : ∃ lines whole, lines.map Line.fileName = p.files.map Submission.fileName
      ∧ WholeLog p.id lines whole ∧ c.log <+: whole := by
    cases hs : c.stage with
    | prepared q =>
        obtain ⟨hid, hf, hlog⟩ := hl.prepared hs
        have hinit := (Logged.init hid hf 0).prefix_whole
        rw [hlog]
        exact hinit
    | running r => exact (hl.running hs).prefix_whole
  refine ⟨hbegun, ?_, ?_, ?_⟩
  · intro e he
    obtain ⟨lines, whole, _, hwhole, hbegin⟩ := hbegun
    exact wholeLog_guid hwhole (hbegin.subset he)
  · intro r hs
    obtain ⟨pending, stops, hacc, hlog, _⟩ := (hb.running hs).accounts
    rw [hacc.events]
    exact hlog
  · intro r hs hp
    have hlogged := hl.running hs
    have hrank : r.phase.rank = 9 := by rw [hp]; rfl
    obtain ⟨hnames, hwhole⟩ := hlogged.whole (by omega)
    refine ⟨_, hwhole, ?_, hnames, ?_, agrees_report hlogged (by omega)⟩
    · rw [wholeLog_length hwhole, length_of_names hnames]
    · rw [List.map_map]
      rfl

/-- A session of one file that is not there, which runs to its end though nobody reads. -/
example :
    let f : Submission := { fileName := "a.txt", declared := none, size := 0, spool := 0 }
    let p : Prepared := { id := "s", handle := 0, files := [f], table := {}, settings := {} }
    let c := (of p { registry := ({} : Registry).opened "s" }).play (List.flatten [[.start],
      List.replicate 5 (.act .run), List.replicate 5 (.act (.worker 0)),
      List.replicate 3 (.act .run), [.wait 1000000], List.replicate 12 (.act .relay),
      [.act .run, .act .run, .act .relay, .act .run]])
    c.log.map Event.state = [.uploadStarted, .fileQueued, .fileProcessingStarted,
      .fileProcessingError, .fileCompleted, .completed] := by
  decide

end Course
end Intake
