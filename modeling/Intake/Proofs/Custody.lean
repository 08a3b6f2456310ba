import Intake.Proofs.Neighbours
import Intake.Proofs.Reports

/-!
# Who has a file

A submitted file is handed on from the session to a task and from the task to a worker, and
whoever has it last removes it. `Run.Guards` says of each file of a session who has it and how it
is found: as it was submitted as long as no worker has read it, and removed from then on. The
worker is the only one that touches it, and touches no other (`Worker.step?_own`,
`Worker.step?_guards`); so all that a session does to the files, it does to its own
(`Course.guards_move`).

Nothing is assumed of extractors and of tests here. They may find a text or nothing, refuse, or
give up in the middle, and behave differently from one moment to the next.
-/

namespace Intake

/-! ## Tables of files -/

namespace Spools

variable {s s' s'' : Spools} {k f : Spool}

theorem state_remove_self (s : Spools) (k : Spool) : (s.remove k).state k = .removed := by
  unfold remove state
  rcases Nat.lt_or_ge k s.files.length with hlt | hge
  · rw [List.getElem?_set_self hlt]
    rfl
  · rw [List.getElem?_eq_none (by rw [List.length_set]; exact hge)]
    rfl

/-- Of two tables the second differs from the first by some files at most. -/
structure Beyond (own : List Spool) (s s' : Spools) : Prop where
  same : ∀ k, k ∉ own → s'.state k = s.state k
  length : s'.files.length = s.files.length

variable {own : List Spool}

theorem Beyond.refl (own : List Spool) (s : Spools) : Beyond own s s :=
  ⟨fun _ _ => rfl, rfl⟩

theorem Beyond.trans (h : Beyond own s s') (h' : Beyond own s' s'') : Beyond own s s'' :=
  ⟨fun k hk => (h'.same k hk).trans (h.same k hk), h'.length.trans h.length⟩

theorem beyond_remove (s : Spools) (hk : k ∈ own) : Beyond own s (s.remove k) where
  same := by
    intro j hj
    refine state_remove_ne ?_
    rintro rfl
    exact hj hk
  length := List.length_set

theorem beyond_removeAll (s : Spools) {fs : List Spool} (hfs : ∀ f ∈ fs, f ∈ own) :
    Beyond own s (s.removeAll fs) := by
  induction fs generalizing s with
  | nil => exact .refl own s
  | cons f fs ih =>
      exact (beyond_remove s (hfs f List.mem_cons_self)).trans
        (ih (s.remove f) fun g hg => hfs g (List.mem_cons_of_mem _ hg))

/-- Files that are removed are gone. -/
theorem state_removeAll {fs : List Spool} (hf : f ∈ fs) :
    (s.removeAll fs).state f = .removed := by
  induction fs generalizing s with
  | nil => exact absurd hf List.not_mem_nil
  | cons g fs ih =>
      by_cases hrest : f ∈ fs
      · exact ih hrest
      · -- it is the first, and nothing touches it afterwards
        have hfg : f = g := (List.mem_cons.mp hf).resolve_right hrest
        subst hfg
        have hafter := beyond_removeAll (s.remove f) fun g (hg : g ∈ fs) => hg
        exact (hafter.same f hrest).trans (state_remove_self s f)

end Spools

/-! ## One worker -/

/-- What a step of a worker comes to: the worker, what it hands over, whether it leaves, and how
its file is found then. -/
def WorkerStep.seen (s : WorkerStep) : Worker × Option Event × Bool × FileState :=
  (s.worker, s.event, s.leaves, s.spools.state s.worker.spool)

namespace Worker

/-- **A worker has to do with its own file and no other**: the others have no part in what its
steps come to, and are left alone. -/
structure Confined (w : Worker) : Prop where
  reads : ∀ table gates spools spools', spools'.state w.spool = spools.state w.spool →
    (w.step? table gates spools').map WorkerStep.seen
      = (w.step? table gates spools).map WorkerStep.seen
  leaves : ∀ table gates spools s, w.step? table gates spools = some s →
    Spools.Beyond [w.spool] spools s.spools

/-- How a worker's file is found: as it was submitted until it has been read, and removed from
then on. -/
def Guards (content : Bytes) (spools : Spools) (w : Worker) : Prop :=
  match w.phase with
  | .ready | .opening => spools.state w.spool = .readable content
  | .reading _ _ found => found = content ∧ spools.state w.spool = .readable content
  | _ => spools.state w.spool = .removed

variable {table : ExtractorTable} {gates : List String} {spools spools' : Spools} {w : Worker}
  {s : WorkerStep} {content : Bytes}

/-- Only its own file is looked at. -/
theorem Guards.congr (h : w.Guards content spools)
    (hs : spools'.state w.spool = spools.state w.spool) : w.Guards content spools' := by
  unfold Guards at h ⊢
  rw [hs]
  exact h

theorem step?_own (h : spools'.state w.spool = spools.state w.spool) :
    (w.step? table gates spools').map WorkerStep.seen
      = (w.step? table gates spools).map WorkerStep.seen := by
  have hremoved : (spools'.remove w.spool).state w.spool = (spools.remove w.spool).state w.spool :=
    (Spools.state_remove_self _ _).trans (Spools.state_remove_self _ _).symm
  unfold step?
  cases w.phase with
  | ready => simp [WorkerStep.seen, h]
  | opening =>
      dsimp only
      rw [h]
      split <;> simp [WorkerStep.seen, h, hremoved]
  | reading detected x found =>
      dsimp only
      split
      · simp [WorkerStep.seen, hremoved]
      · rfl
  | judging finding => simp [WorkerStep.seen, h]
  | closing | leaving => simp [WorkerStep.seen, h]
  | finished | lost => rfl

/-- **A worker's file is there until it has been read, and a step that ends that removes it.** -/
theorem step?_guards (hg : w.Guards content spools) (hs : w.step? table gates spools = some s) :
    s.worker.Guards content s.spools := by
  unfold Guards at hg
  cases hp : w.phase with
  | ready =>
      rw [hp] at hg
      simp only [step?, hp] at hs
      cases hs
      exact hg
  | opening =>
      rw [hp] at hg
      dsimp only at hg
      simp only [step?, hp, hg] at hs
      split at hs
      · cases hs
        exact Spools.state_remove_self _ _
      · rename_i detected x found hx
        cases hs
        -- what it found in the file is what was written there
        have hfound : found = content := by
          unfold Examination.of at hx
          dsimp only at hx
          split at hx <;> cases hx
          rfl
        exact ⟨hfound, hg⟩
  | reading detected x found =>
      simp only [step?, hp] at hs
      split at hs
      · cases hs
        exact Spools.state_remove_self _ _
      · exact absurd hs (by simp)
  | judging finding =>
      rw [hp] at hg
      simp only [step?, hp] at hs
      cases hs
      exact hg
  | closing | leaving =>
      rw [hp] at hg
      simp only [step?, hp] at hs
      cases hs
      exact hg
  | finished | lost =>
      simp only [step?, hp] at hs
      exact absurd hs (by simp)

/-- It keeps its file, and leaves the others alone. -/
theorem step?_beyond (hs : w.step? table gates spools = some s) :
    s.worker.spool = w.spool ∧ Spools.Beyond [w.spool] spools s.spools := by
  have hremove := Spools.beyond_remove spools (List.mem_singleton.mpr (rfl : w.spool = w.spool))
  unfold step? at hs
  split at hs
  · cases hs
    exact ⟨rfl, .refl _ _⟩
  · split at hs
    · cases hs
      exact ⟨rfl, hremove⟩
    · cases hs
      exact ⟨rfl, .refl _ _⟩
  · split at hs
    · cases hs
      exact ⟨rfl, hremove⟩
    · exact absurd hs (by simp)
  · cases hs
    exact ⟨rfl, .refl _ _⟩
  · cases hs
    exact ⟨rfl, .refl _ _⟩
  · cases hs
    exact ⟨rfl, .refl _ _⟩
  · exact absurd hs (by simp)
  · exact absurd hs (by simp)

theorem confined (w : Worker) : w.Confined where
  reads := fun _ _ _ _ h => step?_own h
  leaves := fun _ _ _ _ hs => (step?_beyond hs).2

/-- The file of a worker that is done with it is gone. -/
theorem Guards.removed (h : w.Guards content spools) (ho : w.phase.isOver = true) :
    spools.state w.spool = .removed := by
  unfold Guards at h
  cases hp : w.phase with
  | finished | lost =>
      rw [hp] at h
      exact h
  | _ =>
      rw [hp] at ho
      exact absurd ho (by simp [WorkerPhase.isOver])

/-- One that has not opened its file has it as it was submitted. -/
theorem Guards.early (h : w.Guards content spools) (he : w.phase.isEarly = true) :
    spools.state w.spool = .readable content := by
  unfold Guards at h
  cases hp : w.phase with
  | ready | opening =>
      rw [hp] at h
      exact h
  | _ =>
      rw [hp] at he
      exact absurd he (by simp [WorkerPhase.isEarly])

end Worker

/-! ## A run -/

namespace Run

/-- The files of a run, in the order of submission: those that workers have, those that wait for
one with their tasks, and those without a task. -/
def places (r : Run) : List Spool :=
  r.workers.map Worker.spool ++ (r.queued.map Prod.snd ++ r.files.map Submission.spool)

/-- **How the files of a run are found**, where `bytes` is what was submitted. -/
structure Guards (own : List Spool) (bytes : Spool → Bytes) (r : Run) (spools : Spools) :
    Prop where
  places : r.places = own
  waiting : ∀ k ∈ r.queued.map Prod.snd ++ r.files.map Submission.spool,
    spools.state k = .readable (bytes k)
  workers : ∀ w ∈ r.workers, w.Guards (bytes w.spool) spools

namespace Guards

variable {own : List Spool} {bytes : Spool → Bytes} {r r' : Run} {spools spools' : Spools}

theorem start {q : Prepared} (hq : q.files.map Submission.spool = own)
    (hs : ∀ k ∈ own, spools.state k = .readable (bytes k)) (now : Nat) :
    (Run.start q now).Guards own bytes spools where
  places := hq
  waiting := fun k hk => hs k (hq ▸ hk)
  workers := fun w hw => absurd hw (by simp [Run.start])

/-- Only these parts of a run are looked at. -/
theorem congr (h : r.Guards own bytes spools) (hw : r'.workers = r.workers)
    (hq : r'.queued = r.queued) (hf : r'.files = r.files) : r'.Guards own bytes spools := by
  refine ⟨?_, ?_, ?_⟩
  · rw [← h.places]
    unfold Run.places
    rw [hw, hq, hf]
  · rw [hq, hf]
    exact h.waiting
  · rw [hw]
    exact h.workers

/-- Others leave the run's files alone. -/
theorem spared (h : r.Guards own bytes spools)
    (hs : ∀ k ∈ own, spools'.state k = spools.state k) : r.Guards own bytes spools' := by
  have hown : ∀ k ∈ r.places, spools'.state k = spools.state k := by
    rw [h.places]
    exact hs
  refine ⟨h.places, fun k hk => ?_, fun w hw => (h.workers w hw).congr ?_⟩
  · rw [hown k (List.mem_append_right _ hk)]
    exact h.waiting k hk
  · exact hown w.spool (List.mem_append_left _ (List.mem_map_of_mem hw))

/-- The next file gets a task: it is the last of those that wait with one. -/
theorem queued {f : Submission} {rest : List Submission} {task : FileTask}
    (h : r.Guards own bytes spools) (hf : r.files = f :: rest) (hw : r'.workers = r.workers)
    (hq : r'.queued = r.queued ++ [(task, f.spool)]) (hf' : r'.files = rest) :
    r'.Guards own bytes spools := by
  have hwait : r'.queued.map Prod.snd ++ r'.files.map Submission.spool
      = r.queued.map Prod.snd ++ r.files.map Submission.spool := by
    rw [hq, hf', hf, List.map_append, List.append_assoc]
    rfl
  refine ⟨?_, ?_, ?_⟩
  · rw [← h.places]
    unfold Run.places
    rw [hw, hwait]
  · rw [hwait]
    exact h.waiting
  · rw [hw]
    exact h.workers

/-- The next task gets a worker, which has the file from then on. -/
theorem spawned {task : FileTask} {spool : Spool} {rest : List (FileTask × Spool)}
    (h : r.Guards own bytes spools) (hq : r.queued = (task, spool) :: rest)
    (hw : r'.workers = r.workers ++ [({ task, spool } : Worker)]) (hq' : r'.queued = rest)
    (hf : r'.files = r.files) : r'.Guards own bytes spools := by
  have hwaiting := h.waiting
  rw [hq, List.map_cons, List.cons_append] at hwaiting
  obtain ⟨hspool, hrest⟩ := List.forall_mem_cons.mp hwaiting
  refine ⟨?_, ?_, ?_⟩
  · rw [← h.places]
    unfold Run.places
    rw [hw, hq, hq', hf, List.map_append, List.map_cons, List.append_assoc]
    rfl
  · rw [hq', hf]
    exact hrest
  · intro w hm
    rw [hw] at hm
    rcases List.mem_append.mp hm with hold | hnew
    · exact h.workers w hold
    · rw [List.mem_singleton.mp hnew]
      exact hspool

/-- **A worker goes on with its own file**, and no other of the run has the same. -/
theorem worked {table : ExtractorTable} {gates : List String} {i : Nat} {w : Worker}
    {s : WorkerStep} (hn : own.Nodup) (h : r.Guards own bytes spools)
    (hi : r.workers[i]? = some w) (hs : w.step? table gates spools = some s)
    (hw : r'.workers = r.workers.set i s.worker) (hq : r'.queued = r.queued)
    (hf : r'.files = r.files) : r'.Guards own bytes s.spools := by
  have hm : w ∈ r.workers := List.mem_of_getElem? hi
  obtain ⟨hkeep, hothers⟩ := Worker.step?_beyond hs
  have hguards := Worker.step?_guards (h.workers w hm) hs
  rw [← h.places] at hn
  obtain ⟨hnodup, _, hapart⟩ := List.nodup_append.mp hn
  refine ⟨?_, ?_, ?_⟩
  · rw [← h.places]
    unfold Run.places
    rw [hw, hq, hf, List.map_set, hkeep, set_self (by rw [List.getElem?_map, hi]; rfl)]
  · intro k hk
    rw [hq, hf] at hk
    have hne : k ∉ [w.spool] := fun hkw =>
      hapart w.spool (List.mem_map_of_mem hm) k hk (List.mem_singleton.mp hkw).symm
    rw [hothers.same k hne]
    exact h.waiting k hk
  · intro v hv
    rw [hw] at hv
    obtain ⟨j, hj⟩ := List.mem_iff_getElem?.mp hv
    by_cases hij : i = j
    · subst hij
      rw [List.getElem?_set_self (List.getElem?_eq_some_iff.mp hi).1] at hj
      cases hj
      rw [hkeep]
      exact hguards
    · rw [List.getElem?_set_ne hij] at hj
      refine (h.workers v (List.mem_of_getElem? hj)).congr (hothers.same _ fun hvw => hij ?_)
      -- two workers with one file would be at one place
      have hiw : (r.workers.map Worker.spool)[i]? = some w.spool := by
        rw [List.getElem?_map, hi]
        rfl
      have hjv : (r.workers.map Worker.spool)[j]? = some w.spool := by
        rw [List.getElem?_map, hj, ← List.mem_singleton.mp hvw]
        rfl
      exact (List.getElem?_inj (List.getElem?_eq_some_iff.mp hiw).1 hnodup).mp (hiw.trans hjv.symm)

/-- **Preserved by every step**, which touches the run's own files at most. -/
theorem step {hub hub' : Hub} {a : Action} {handed : List Event}
    {decides : List (Event × DeliveryOutcome)} (hn : own.Nodup)
    (h : r.Guards own bytes hub.spools) (ha : r.Acted hub a handed decides hub' r') :
    r'.Guards own bytes hub'.spools ∧ Spools.Beyond own hub.spools hub'.spools := by
  cases ha with
  | queued _ hf => exact ⟨h.queued hf rfl rfl rfl, .refl _ _⟩
  | spawned _ hq => exact ⟨h.spawned hq rfl rfl rfl, .refl _ _⟩
  | @worked i w s hi hs =>
      obtain ⟨_, _, hf, hq, hw⟩ := Logged.applyStep_fields r hub i s
      refine ⟨h.worked hn hi hs hw hq hf, ?_⟩
      have hmem : w.spool ∈ own := by
        rw [← h.places]
        exact List.mem_append_left _ (List.mem_map_of_mem (List.mem_of_getElem? hi))
      obtain ⟨hsame, hlength⟩ := (Worker.step?_beyond hs).2
      refine ⟨fun k hk => hsame k fun hkw => hk ?_, hlength⟩
      rw [List.mem_singleton.mp hkw]
      exact hmem
  | _ => exact ⟨h.congr rfl rfl rfl, .refl _ _⟩

/-- A run that is given up leaves the files to those who have them. -/
theorem abandon (h : r.Guards own bytes spools) (hub : Hub) :
    (r.abandon hub).2.Guards own bytes spools := by
  unfold Run.abandon
  split
  · exact h.congr rfl rfl rfl
  · exact h

end Guards
end Run

/-! ## A session -/

namespace Course

/-- How the files of a session are found, before and after it begins to run. -/
def Guards (own : List Spool) (bytes : Spool → Bytes) (c : Course) : Prop :=
  match c.stage with
  | .prepared q => q.files.map Submission.spool = own
    ∧ ∀ k ∈ own, c.hub.spools.state k = .readable (bytes k)
  | .running r => r.Guards own bytes c.hub.spools

variable {own : List Spool} {bytes : Spool → Bytes} {c : Course}

theorem Guards.prepared (h : c.Guards own bytes) {q : Prepared} (hs : c.stage = .prepared q) :
    q.files.map Submission.spool = own
      ∧ ∀ k ∈ own, c.hub.spools.state k = .readable (bytes k) := by
  unfold Guards at h
  rw [hs] at h
  exact h

theorem Guards.running (h : c.Guards own bytes) {r : Run} (hs : c.stage = .running r) :
    r.Guards own bytes c.hub.spools := by
  unfold Guards at h
  rw [hs] at h
  exact h

/-- What others do does not concern a session, if they leave its files alone. -/
theorem Guards.around (h : c.Guards own bytes) {hub : Hub}
    (hs : ∀ k ∈ own, hub.spools.state k = c.hub.spools.state k) :
    Guards own bytes { c with hub } := by
  unfold Guards at h ⊢
  dsimp only
  split at h
  · exact ⟨h.1, fun k hk => (hs k hk).trans (h.2 k hk)⟩
  · exact h.spared hs

/-- **A session touches its own files at most**, whatever moves it makes. -/
theorem guards_move (hn : own.Nodup) (h : c.Guards own bytes) {m : Move} (hm : m.isOwn = true) :
    (c.move m).Guards own bytes ∧ Spools.Beyond own c.hub.spools (c.move m).hub.spools := by
  have hsame : Spools.Beyond own c.hub.spools c.hub.spools := .refl _ _
  cases m with
  | takeMirror =>
      dsimp only [move]
      split
      · rename_i q hs
        have hq := h.prepared hs
        exact ⟨hq, hsame⟩
      · exact ⟨h, hsame⟩
  | start =>
      dsimp only [move]
      split
      · rename_i q hs
        obtain ⟨hq, hfiles⟩ := h.prepared hs
        exact ⟨.start hq hfiles _, hsame⟩
      · exact ⟨h, hsame⟩
  | act a =>
      dsimp only [move]
      split
      · exact ⟨h, hsame⟩
      · rename_i r hs
        split
        · exact ⟨h, hsame⟩
        · rename_i ha
          exact (h.running hs).step hn (Run.act_acted ha)
  | abandon =>
      dsimp only [move]
      split
      · exact ⟨h, hsame⟩
      · rename_i r hs
        have hspools : (r.abandon c.hub).1.spools = c.hub.spools := by
          unfold Run.abandon
          split <;> rfl
        refine ⟨?_, ?_⟩
        · show Run.Guards own bytes _ (r.abandon c.hub).1.spools
          rw [hspools]
          exact (h.running hs).abandon _
        · show Spools.Beyond own _ (r.abandon c.hub).1.spools
          rw [hspools]
          exact hsame
  | popMirror =>
      dsimp only [move]
      split
      · exact ⟨h, hsame⟩
      · rename_i r hs
        split
        · exact ⟨(h.running hs).congr rfl rfl rfl, hsame⟩
        · exact ⟨h, hsame⟩
  | abandonMirror =>
      dsimp only [move]
      split
      · rename_i q hs
        have hq := h.prepared hs
        exact ⟨hq, hsame⟩
      · rename_i r hs
        exact ⟨(h.running hs).congr rfl rfl rfl, hsame⟩
  | behave table =>
      dsimp only [move]
      split
      · rename_i q hs
        have hq := h.prepared hs
        exact ⟨hq, hsame⟩
      · rename_i r hs
        exact ⟨(h.running hs).congr rfl rfl rfl, hsame⟩
  | _ => exact absurd hm (by simp [Move.isOwn])

end Course
end Intake
