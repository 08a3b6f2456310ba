import Mathlib.Data.List.Nodup
import Mathlib.Data.List.Perm.Basic
import Intake.Proofs.Custody

/-!
# No file outlives its batch

A depot is any number of batches around one table of files. Files are submitted one by one. A
batch is given up, or a session is asked for it; the session may be refused, given up before it
runs or at a point at which its run waits, or run to its end. All this goes on at the same time,
in any order.

Every place of the table is of one batch at most. So what becomes of one batch does not concern
the files of the others (`Inv.turned`), and it is enough to say for a batch by itself how its
files are found (`Batch.Guards`, `Batch.guards_move`).
-/

namespace Intake

/-- A file that was submitted, and what was in it. -/
structure Deposit where
  file : Submission
  content : Bytes

/-- Who has the files of a batch. -/
inductive Custody where
  /-- Whoever submits them. -/
  | held
  /-- Nobody: no session was opened for them. -/
  | refused (error : SessionError)
  /-- Nobody: they were given up before a session ran. -/
  | withdrawn
  /-- A session, as it was after its last move. -/
  | session (c : Course)

/-- Files that are submitted together. -/
structure Batch where
  deposits : List Deposit := []
  custody : Custody := .held

namespace Batch

def files (b : Batch) : List Submission :=
  b.deposits.map Deposit.file

/-- The places of the files, in the order of submission. -/
def places (b : Batch) : List Spool :=
  b.files.map Submission.spool

/-- The batch with one more file. -/
def add (b : Batch) (file : Submission) (content : Bytes) : Batch :=
  { b with deposits := b.deposits ++ [{ file, content }] }

/-- The run of a session that was started. -/
def run? (b : Batch) : Option Run :=
  match b.custody with
  | .session c => c.run?
  | _ => none

/-- Holds until a worker has opened the file at a place, or the batch was given up. -/
def Unopened (b : Batch) (k : Spool) : Prop :=
  match b.custody with
  | .held => True
  | .refused _ | .withdrawn => False
  | .session c => ∀ r, c.run? = some r → ∀ w ∈ r.workers, w.spool = k → w.phase.isEarly = true

/-- Holds once nobody has anything to do with the files any more: there is no session, or its
run waits at the barrier or behind it, or is over, and all workers have finished. -/
def Done (b : Batch) : Prop :=
  match b.custody with
  | .held => False
  | .refused _ | .withdrawn => True
  | .session c => ∃ r, c.run? = some r ∧ (r.isSuspended || r.isOver) = true
    ∧ ∀ w ∈ r.workers, w.phase.isOver = true

/-- What can become of a batch. -/
inductive Move where
  /-- A file is submitted. -/
  | submit (fileName : String) (type : Option String) (content : Bytes)
  /-- A session is asked for. -/
  | prepare (table : ExtractorTable) (settings : SessionSettings) (id : Option String)
  /-- The batch is given up before a session runs. -/
  | withdraw
  /-- The session makes a move of its own. -/
  | session (m : Course.Move)

/-- The batch after a move. A move that cannot be made changes nothing. -/
def move (b : Batch) (hub : Hub) (m : Move) : Batch × Hub :=
  match m, b.custody with
  | .submit fileName type content, .held =>
    let (file, spools) := Submission.spooled hub.spools fileName type content
    (b.add file content, { hub with spools })
  | .prepare table settings id, .held =>
    match Prepared.open? table settings id b.files hub with
    | (.ok p, hub) => ({ b with custody := .session (Course.of p hub) }, hub)
    | (.error e, hub) => ({ b with custody := .refused e }, hub)
  | .withdraw, .held =>
    ({ b with custody := .withdrawn }, { hub with spools := hub.spools.removeAll b.places })
  | .withdraw, .session c =>
    match c.stage with
    | .prepared p => ({ b with custody := .withdrawn }, p.discard hub)
    | .running _ => (b, hub)
  | .session m, .session c =>
    if m.isOwn then
      let c' := Course.move { c with hub } m
      ({ b with custody := .session c' }, c'.hub)
    else (b, hub)
  | _, _ => (b, hub)

end Batch

/-- Batches around one table of files. -/
structure Depot where
  hub : Hub
  /-- In the order in which they began. -/
  batches : List Batch := []

namespace Depot

/-- The places of all files. -/
def places (d : Depot) : List Spool :=
  d.batches.flatMap Batch.places

/-- What can happen next. -/
inductive Move where
  /-- A batch begins, without a file. -/
  | begin
  /-- Something becomes of a batch. -/
  | turn (i : Nat) (m : Batch.Move)
  /-- Others use the registry and take ids, gates open and close, and time passes. -/
  | around (registry : Registry) (ms : Nat) (gates : List String) (serial : Nat)

/-- The depot after a move. A move that cannot be made changes nothing. -/
def move (d : Depot) : Move → Depot
  | .begin => { d with batches := d.batches ++ [{}] }
  | .turn i m =>
    match d.batches[i]? with
    | none => d
    | some b => { hub := (b.move d.hub m).2, batches := d.batches.set i (b.move d.hub m).1 }
  | .around registry ms gates serial =>
    { d with hub := { d.hub with now := d.hub.now + ms, registry, gates, serial } }

/-- The depot after some moves. -/
def play (d : Depot) (ms : List Move) : Depot :=
  ms.foldl move d

end Depot

/-! ## What one batch does to the files -/

namespace Spools

variable {s s' : Spools} {own own' : List Spool} {k : Spool}

theorem state_write_self (s : Spools) (content : Bytes) :
    (s.write content).2.state s.files.length = .readable content := by
  unfold write state
  dsimp only
  rw [List.getElem?_concat_length]
  rfl

theorem state_write_ne (content : Bytes) (hk : k ≠ s.files.length) :
    (s.write content).2.state k = s.state k := by
  unfold write state
  dsimp only
  rcases Nat.lt_or_gt_of_ne hk with hlt | hgt
  · rw [List.getElem?_append_left hlt]
  · rw [List.getElem?_eq_none (by rw [List.length_append]; exact hgt),
      List.getElem?_eq_none (Nat.le_of_lt hgt)]

/-- Some files have got new ones behind all there were, and no others were touched. -/
structure Grown (own own' : List Spool) (s s' : Spools) : Prop where
  le : s.files.length ≤ s'.files.length
  places : own' = own ++ List.range' s.files.length (s'.files.length - s.files.length)
  same : ∀ k, k ∉ own' → s'.state k = s.state k

theorem Beyond.grown (h : Beyond own s s') : Grown own own s s' where
  le := Nat.le_of_eq h.length.symm
  places := by rw [h.length, Nat.sub_self, List.range'_zero, List.append_nil]
  same := h.same

theorem grown_write (own : List Spool) (s : Spools) (content : Bytes) :
    Grown own (own ++ [s.files.length]) s (s.write content).2 := by
  have hlength : (s.write content).2.files.length = s.files.length + 1 := List.length_append
  refine ⟨by omega, ?_, ?_⟩
  · rw [hlength, Nat.add_sub_cancel_left]
    rfl
  · intro k hk
    refine state_write_ne content ?_
    rintro rfl
    exact hk (List.mem_append_right _ (List.mem_singleton.mpr rfl))

end Spools

/-- A session that is opened has the files that it was asked for, and they are left alone; when
none is opened they are removed. -/
theorem Prepared.open?_spools {table : ExtractorTable} {settings : SessionSettings}
    {id : Option String} {files : List Submission} {hub hub' : Hub}
    {x : Except SessionError Prepared}
    (ho : Prepared.open? table settings id files hub = (x, hub')) :
    (∀ p, x = .ok p → p.files = files ∧ hub'.spools = hub.spools)
      ∧ ∀ e, x = .error e → hub'.spools = hub.spools.removeAll (files.map Submission.spool) := by
  unfold Prepared.open? at ho
  dsimp only at ho
  split at ho
  · cases ho
    exact ⟨fun p hp => absurd hp (by simp), fun _ _ => rfl⟩
  · split at ho
    · cases ho
      exact ⟨fun p hp => absurd hp (by simp), fun _ _ => rfl⟩
    · cases ho
      refine ⟨fun p hp => ?_, fun e he => absurd he (by simp)⟩
      cases hp
      exact ⟨rfl, rfl⟩

/-- How the files at some places are found, depending on who has them. -/
def Custody.Guards (own : List Spool) (bytes : Spool → Bytes) (hub : Hub) : Custody → Prop
  | .held => ∀ k ∈ own, hub.spools.state k = .readable (bytes k)
  | .refused _ | .withdrawn => ∀ k ∈ own, hub.spools.state k = .removed
  | .session c => (∃ p, c.Logs p) ∧ Course.Guards own bytes { c with hub }

namespace Batch

/-- **How the files of a batch are found**, where `bytes` is what was submitted. -/
structure Guards (b : Batch) (bytes : Spool → Bytes) (hub : Hub) : Prop where
  submitted : ∀ x ∈ b.deposits, bytes x.file.spool = x.content
  found : b.custody.Guards b.places bytes hub

variable {b : Batch} {bytes : Spool → Bytes} {hub hub' : Hub}

theorem mem_places {x : Deposit} (hx : x ∈ b.deposits) : x.file.spool ∈ b.places :=
  List.mem_map_of_mem (List.mem_map_of_mem hx)

theorem places_add (b : Batch) (file : Submission) (content : Bytes) :
    (b.add file content).places = b.places ++ [file.spool] := by
  unfold places files add
  rw [List.map_append, List.map_append]
  rfl

namespace Guards

/-- What others do does not concern a batch, if they leave its files alone. -/
theorem spared (h : b.Guards bytes hub)
    (hs : ∀ k ∈ b.places, hub'.spools.state k = hub.spools.state k) : b.Guards bytes hub' := by
  refine ⟨h.submitted, ?_⟩
  have hfound := h.found
  unfold Custody.Guards at hfound ⊢
  split at hfound
  · exact fun k hk => (hs k hk).trans (hfound k hk)
  · exact fun k hk => (hs k hk).trans (hfound k hk)
  · exact fun k hk => (hs k hk).trans (hfound k hk)
  · exact ⟨hfound.1, hfound.2.around hs⟩

/-- One more file, behind all that there were. -/
theorem add (hlt : ∀ k ∈ b.places, k < hub.spools.files.length) (h : b.Guards bytes hub)
    (hc : b.custody = .held) {file : Submission} (hf : file.spool = hub.spools.files.length)
    (content : Bytes) :
    (b.add file content).Guards (Function.update bytes file.spool content)
      { hub with spools := (hub.spools.write content).2 } := by
  -- the new place is none of those that the batch has
  have hne : ∀ k ∈ b.places, k ≠ file.spool := by
    intro k hk
    rw [hf]
    exact Nat.ne_of_lt (hlt k hk)
  refine ⟨?_, ?_⟩
  · intro x hx
    rcases List.mem_append.mp hx with hold | hnew
    · rw [Function.update_of_ne (hne _ (mem_places hold))]
      exact h.submitted x hold
    · rw [List.mem_singleton.mp hnew]
      exact Function.update_self ..
  · have hfound := h.found
    rw [hc] at hfound
    show Custody.Guards _ _ _ b.custody
    rw [hc, places_add]
    intro k hk
    rcases List.mem_append.mp hk with hold | hnew
    · rw [Function.update_of_ne (hne k hold), ← hfound k hold]
      exact Spools.state_write_ne content (hf ▸ hne k hold)
    · rw [List.mem_singleton.mp hnew, Function.update_self, hf]
      exact Spools.state_write_self _ content

/-- A session is asked for. -/
theorem prepare {table : ExtractorTable} {settings : SessionSettings} {id : Option String}
    {x : Except SessionError Prepared} (h : b.Guards bytes hub) (hc : b.custody = .held)
    (ho : Prepared.open? table settings id b.files hub = (x, hub')) :
    (∀ p, x = .ok p → ({ b with custody := .session (Course.of p hub') } : Batch).Guards bytes hub')
      ∧ ∀ e, x = .error e → ({ b with custody := .refused e } : Batch).Guards bytes hub' := by
  have hfound := h.found
  rw [hc] at hfound
  obtain ⟨hok, herror⟩ := Prepared.open?_spools ho
  refine ⟨fun p hp => ⟨h.submitted, ⟨p, Course.logs_of p hub'⟩, ?_⟩, fun e he => ⟨h.submitted, ?_⟩⟩
  · obtain ⟨hfiles, hspools⟩ := hok p hp
    refine ⟨congrArg (List.map Submission.spool) hfiles, fun k hk => ?_⟩
    show hub'.spools.state k = _
    rw [hspools]
    exact hfound k hk
  · intro k hk
    rw [herror e he]
    exact Spools.state_removeAll hk

end Guards

/-- **A batch touches its own files at most**, whatever becomes of it, and what it has of them is
found as it should be. -/
theorem guards_move (hn : b.places.Nodup) (hlt : ∀ k ∈ b.places, k < hub.spools.files.length)
    (h : ∃ bytes, b.Guards bytes hub) (m : Move) :
    (∃ bytes, (b.move hub m).1.Guards bytes (b.move hub m).2)
      ∧ Spools.Grown b.places (b.move hub m).1.places hub.spools (b.move hub m).2.spools := by
  obtain ⟨bytes, hb⟩ := h
  have hsame : Spools.Grown b.places b.places hub.spools hub.spools := (Spools.Beyond.refl _ _).grown
  have hfound := hb.found
  unfold move
  split
  · -- a file is submitted
    rename_i name type content hc
    refine ⟨⟨_, hb.add hlt hc rfl content⟩, ?_⟩
    show Spools.Grown _ (b.add _ content).places _ _
    rw [places_add]
    exact Spools.grown_write b.places hub.spools content
  · -- a session is asked for
    rename_i table settings id hc
    split
    · rename_i p hub' ho
      have hspools := ((Prepared.open?_spools ho).1 p rfl).2
      refine ⟨⟨bytes, (hb.prepare hc ho).1 p rfl⟩, ?_⟩
      show Spools.Grown b.places b.places hub.spools hub'.spools
      rw [hspools]
      exact hsame
    · rename_i e hub' ho
      have hspools := (Prepared.open?_spools ho).2 e rfl
      refine ⟨⟨bytes, (hb.prepare hc ho).2 e rfl⟩, ?_⟩
      show Spools.Grown b.places b.places hub.spools hub'.spools
      rw [hspools]
      exact (Spools.beyond_removeAll hub.spools fun _ hk => hk).grown
  · -- the batch is given up
    exact ⟨⟨bytes, hb.submitted, fun k hk => Spools.state_removeAll hk⟩,
      (Spools.beyond_removeAll hub.spools fun _ hk => hk).grown⟩
  · -- the session is given up
    rename_i c hc
    rw [hc] at hfound
    split
    · rename_i p hs
      have hp : p.files.map Submission.spool = b.places := (hfound.2.prepared hs).1
      unfold Prepared.discard
      rw [hp]
      exact ⟨⟨bytes, hb.submitted, fun k hk => Spools.state_removeAll hk⟩,
        (Spools.beyond_removeAll hub.spools fun _ hk => hk).grown⟩
    · exact ⟨⟨bytes, hb⟩, hsame⟩
  · -- the session goes on
    rename_i mv c hc
    rw [hc] at hfound
    obtain ⟨⟨p, hl⟩, hg⟩ := hfound
    split
    · rename_i hown
      obtain ⟨hguards, hbeyond⟩ := Course.guards_move hn hg hown
      have hlogs : ({ c with hub } : Course).Logs p := hl
      exact ⟨⟨bytes, hb.submitted, ⟨p, Course.logs_moved hlogs (Course.move_moved _ mv)⟩, hguards⟩,
        hbeyond.grown⟩
    · exact ⟨⟨bytes, hb⟩, hsame⟩
  · exact ⟨⟨bytes, hb⟩, hsame⟩

end Batch

/-! ## All batches -/

namespace Depot

/-- **The invariant of a depot**, which began with some files that are not its own. -/
structure Inv (start : Hub) (d : Depot) : Prop where
  le : start.spools.files.length ≤ d.hub.spools.files.length
  apart : d.places.Nodup
  within : ∀ k : Nat, k ∈ d.places →
    start.spools.files.length ≤ k ∧ k < d.hub.spools.files.length
  guards : ∀ b ∈ d.batches, ∃ bytes, b.Guards bytes d.hub
  others : ∀ k : Nat, k < start.spools.files.length → d.hub.spools.state k = start.spools.state k

variable {start : Hub} {d : Depot}

theorem inv_start (start : Hub) : Inv start { hub := start } where
  le := Nat.le_refl _
  apart := List.nodup_nil
  within := fun _ hk => absurd hk List.not_mem_nil
  guards := fun _ hb => absurd hb List.not_mem_nil
  others := fun _ _ => rfl

/-- The places when a batch has become another one: its own, and those of the others. -/
theorem places_set {i : Nat} (hi : i < d.batches.length) (b : Batch) (hub : Hub) :
    (places { hub, batches := d.batches.set i b }).Perm
      (b.places ++ (d.batches.eraseIdx i).flatMap Batch.places) :=
  (List.set_perm_cons_eraseIdx hi b).flatMap_right Batch.places

/-- **Something becomes of one batch**, and nothing of the others. -/
theorem Inv.turned {i : Nat} {b b' : Batch} {hub : Hub} (h : Inv start d)
    (hi : d.batches[i]? = some b) (hb : ∃ bytes, b'.Guards bytes hub)
    (hs : Spools.Grown b.places b'.places d.hub.spools hub.spools) :
    Inv start { hub, batches := d.batches.set i b' } := by
  obtain ⟨hlt, rfl⟩ := List.getElem?_eq_some_iff.mp hi
  have hpart := places_set hlt b' hub
  have hle := hs.le
  -- there are the places there were, and those of what was submitted
  have hall : (places { hub, batches := d.batches.set i b' }).Perm
      (List.range' d.hub.spools.files.length
        (hub.spools.files.length - d.hub.spools.files.length) ++ d.places) := by
    have hold := (List.getElem_cons_eraseIdx_perm hlt).flatMap_right Batch.places
    refine hpart.trans ?_
    rw [hs.places]
    refine (List.perm_append_comm.append_right _).trans ?_
    rw [List.append_assoc]
    exact hold.append_left _
  have hwithin : ∀ k : Nat, k ∈ places { hub, batches := d.batches.set i b' } →
      start.spools.files.length ≤ k ∧ k < hub.spools.files.length := by
    intro k hk
    have hle₀ := h.le
    rcases List.mem_append.mp (hall.mem_iff.mp hk) with hnew | hold
    · have := List.mem_range'_1.mp hnew
      omega
    · have := h.within k hold
      omega
  have hapart : (places { hub, batches := d.batches.set i b' }).Nodup := by
    refine hall.nodup_iff.mpr (List.nodup_append.mpr ⟨List.nodup_range', h.apart, ?_⟩)
    rintro k hnew _ hold rfl
    have := List.mem_range'_1.mp hnew
    have := h.within k hold
    omega
  refine ⟨h.le.trans hle, hapart, hwithin, ?_, ?_⟩
  · intro x hx
    rcases List.mem_cons.mp ((List.set_perm_cons_eraseIdx hlt b').mem_iff.mp hx) with heq | hother
    · rw [heq]
      exact hb
    · -- it has none of the places of the one that something becomes of
      obtain ⟨bytes, hguards⟩ := h.guards x (List.mem_of_mem_eraseIdx hother)
      refine ⟨bytes, hguards.spared fun k hk => hs.same k fun hkb => ?_⟩
      obtain ⟨_, _, hne⟩ := List.nodup_append.mp (hpart.nodup_iff.mp hapart)
      exact hne k hkb k (List.mem_flatMap.mpr ⟨x, hother, hk⟩) rfl
  · intro k hk
    rw [hs.same k, h.others k hk]
    intro hkb
    have := hwithin k (hpart.mem_iff.mpr (List.mem_append_left _ hkb))
    omega

/-- **Preserved by every move.** -/
theorem inv_move (h : Inv start d) (m : Move) : Inv start (d.move m) := by
  cases m with
  | begin =>
      have hplaces : (d.move .begin).places = d.places := by
        unfold places move
        dsimp only
        rw [List.flatMap_append]
        exact List.append_nil _
      refine ⟨h.le, ?_, ?_, ?_, h.others⟩
      · rw [hplaces]
        exact h.apart
      · rw [hplaces]
        exact h.within
      · intro b hb
        rcases List.mem_append.mp hb with hold | hnew
        · exact h.guards b hold
        · rw [List.mem_singleton.mp hnew]
          exact ⟨fun _ => [], List.forall_mem_nil _, List.forall_mem_nil _⟩
  | turn i m =>
      unfold move
      dsimp only
      split
      · exact h
      · rename_i b hi
        have hb : b ∈ d.batches := List.mem_of_getElem? hi
        have hn : b.places.Nodup := (List.nodup_flatMap.mp h.apart).1 b hb
        have hlt : ∀ k ∈ b.places, k < d.hub.spools.files.length := fun k hk =>
          (h.within k (List.mem_flatMap.mpr ⟨b, hb, hk⟩)).2
        obtain ⟨hguards, hgrown⟩ := Batch.guards_move hn hlt (h.guards b hb) m
        exact h.turned hi hguards hgrown
  | around registry ms gates serial =>
      refine ⟨h.le, h.apart, h.within, fun b hb => ?_, h.others⟩
      obtain ⟨bytes, hguards⟩ := h.guards b hb
      exact ⟨bytes, hguards.spared fun _ _ => rfl⟩

theorem inv_play (start : Hub) (ms : List Move) : Inv start (play { hub := start } ms) := by
  suffices h : ∀ d, Inv start d → Inv start (play d ms) from h _ (inv_start start)
  induction ms with
  | nil => exact fun _ h => h
  | cons m ms ih => exact fun d h => ih (d.move m) (inv_move h m)

end Depot

/-! ## What holds of each batch -/

/-- A run that waits at the barrier or behind it, or is over, has given every file to a worker. -/
theorem Logged.allGiven {p : Prepared} {r : Run} {log : List Event} (h : Logged p r log)
    (hr : (r.isSuspended || r.isOver) = true) : r.queued = [] ∧ r.files = [] := by
  have hrank : 3 ≤ r.phase.rank := by
    unfold Run.isSuspended Run.isOver at hr
    cases hp : r.phase <;> rw [hp] at hr <;> simp_all [RunPhase.rank]
  exact ⟨h.allSpawned hrank, h.allQueued (Nat.le_of_succ_le hrank)⟩

/-- **What holds of a batch at any time.** -/
structure Batch.Kept (b : Batch) (hub : Hub) : Prop where
  /-- A file that nobody has opened or given up is as it was submitted. -/
  whole : ∀ x ∈ b.deposits, b.Unopened x.file.spool →
    hub.spools.state x.file.spool = .readable x.content
  /-- The workers have the files in the order of submission, and from the barrier on, also when
  the run is given up there, every file has its worker. -/
  given : ∀ r, b.run? = some r → r.workers.map Worker.spool <+: b.places
    ∧ ((r.isSuspended || r.isOver) = true → r.workers.map Worker.spool = b.places)
  /-- A worker has to do with its own file and no other, and what it reads is what was
  submitted. -/
  reads : ∀ r w, b.run? = some r → w ∈ r.workers → w.Confined
    ∧ ∀ detected extractor found, w.phase = .reading detected extractor found →
      ∃ x ∈ b.deposits, x.file.spool = w.spool ∧ found = x.content
  /-- When nobody has anything to do with the files any more, none is there. -/
  released : b.Done → ∀ k ∈ b.places, hub.spools.state k = .removed
  /-- That is so when a run returns. -/
  returned : ∀ r, b.run? = some r → r.phase = .returned → b.Done

namespace Batch

variable {b : Batch} {bytes : Spool → Bytes} {hub : Hub} {r : Run}

theorem session_of_run? (hr : b.run? = some r) : ∃ c, b.custody = .session c ∧ c.run? = some r := by
  unfold run? at hr
  split at hr
  · rename_i c hc
    exact ⟨c, hc, hr⟩
  · exact absurd hr (by simp)

namespace Guards

/-- What holds of the run of a batch. -/
theorem running (h : b.Guards bytes hub) (hr : b.run? = some r) :
    (∃ p log, Logged p r log) ∧ r.Guards b.places bytes hub.spools := by
  obtain ⟨c, hc, hr⟩ := session_of_run? hr
  have hs := Course.stage_of_run? hr
  have hfound := h.found
  rw [hc] at hfound
  obtain ⟨⟨p, hl⟩, hg⟩ := hfound
  exact ⟨⟨p, c.log, hl.running hs⟩, hg.running hs⟩

/-- From the barrier on, the files are the workers'. -/
theorem given (h : b.Guards bytes hub) (hr : b.run? = some r)
    (hp : (r.isSuspended || r.isOver) = true) : r.workers.map Worker.spool = b.places := by
  obtain ⟨⟨p, log, hl⟩, hg⟩ := h.running hr
  obtain ⟨hq, hf⟩ := hl.allGiven hp
  rw [← hg.places]
  unfold Run.places
  rw [hq, hf]
  exact (List.append_nil _).symm

theorem whole (h : b.Guards bytes hub) {k : Spool} (hk : k ∈ b.places) (hu : b.Unopened k) :
    hub.spools.state k = .readable (bytes k) := by
  have hfound := h.found
  unfold Unopened at hu
  cases hc : b.custody with
  | held =>
      rw [hc] at hfound
      exact hfound k hk
  | refused e =>
      rw [hc] at hu
      exact hu.elim
  | withdrawn =>
      rw [hc] at hu
      exact hu.elim
  | session c =>
      rw [hc] at hfound hu
      obtain ⟨_, hg⟩ := hfound
      cases hs : c.stage with
      | prepared q => exact (hg.prepared hs).2 k hk
      | running r =>
          have hr := hg.running hs
          rw [← hr.places] at hk
          rcases List.mem_append.mp hk with hworker | hwaiting
          · -- a worker has it that has not come to it yet
            obtain ⟨w, hw, rfl⟩ := List.mem_map.mp hworker
            have hrun : c.run? = some r := by
              unfold Course.run?
              rw [hs]
            exact (hr.workers w hw).early (hu r hrun w hw rfl)
          · exact hr.waiting k hwaiting

theorem released (h : b.Guards bytes hub) (hd : b.Done) {k : Spool} (hk : k ∈ b.places) :
    hub.spools.state k = .removed := by
  have hfound := h.found
  unfold Done at hd
  cases hc : b.custody with
  | held =>
      rw [hc] at hd
      exact hd.elim
  | refused e =>
      rw [hc] at hfound
      exact hfound k hk
  | withdrawn =>
      rw [hc] at hfound
      exact hfound k hk
  | session c =>
      rw [hc] at hd
      obtain ⟨r, hrun, hp, hover⟩ := hd
      have hr : b.run? = some r := by
        unfold run?
        rw [hc]
        exact hrun
      -- by now each file is a worker's, and it was removed when the worker was through with it
      rw [← h.given hr hp] at hk
      obtain ⟨w, hw, rfl⟩ := List.mem_map.mp hk
      exact ((h.running hr).2.workers w hw).removed (hover w hw)

theorem kept (h : b.Guards bytes hub) : b.Kept hub where
  whole := by
    intro x hx hu
    rw [h.whole (mem_places hx) hu, h.submitted x hx]
  given := fun r hr => ⟨⟨_, (h.running hr).2.places⟩, h.given hr⟩
  reads := by
    intro r w hr hw
    refine ⟨w.confined, fun detected extractor found hp => ?_⟩
    have hg := (h.running hr).2
    have hplace : w.spool ∈ b.places := by
      rw [← hg.places]
      exact List.mem_append_left _ (List.mem_map_of_mem hw)
    obtain ⟨f, hf, hfw⟩ := List.mem_map.mp hplace
    obtain ⟨x, hx, rfl⟩ := List.mem_map.mp hf
    have hfound := hg.workers w hw
    unfold Worker.Guards at hfound
    rw [hp] at hfound
    exact ⟨x, hx, hfw, by rw [hfound.1, ← hfw, h.submitted x hx]⟩
  released := fun hd k hk => h.released hd hk
  returned := by
    intro r hr hp
    obtain ⟨⟨p, log, hl⟩, _⟩ := h.running hr
    obtain ⟨c, hc, hrun⟩ := session_of_run? hr
    have hover := hl.allOver (by rw [hp]; decide)
    unfold Done
    rw [hc]
    refine ⟨r, hrun, ?_, hover⟩
    unfold Run.isOver
    rw [hp]
    exact Bool.or_true _

end Guards
end Batch

namespace Depot

/-- **What holds of all batches at any time.** -/
structure Kept (start : Hub) (d : Depot) : Prop where
  batches : ∀ b ∈ d.batches, b.Kept d.hub
  /-- No place is of two files. -/
  apart : d.places.Nodup
  /-- The files that were there before are left alone. -/
  others : ∀ k : Nat, k < start.spools.files.length →
    d.hub.spools.state k = start.spools.state k

/-- **No file outlives its batch**, whatever becomes of the batch and whatever goes on around it;
and until a worker opens it or the batch is given up, it is as it was submitted. -/
theorem depot_kept (start : Hub) (ms : List Move) : Kept start (play { hub := start } ms) := by
  have h := inv_play start ms
  refine ⟨fun b hb => ?_, h.apart, h.others⟩
  obtain ⟨bytes, hguards⟩ := h.guards b hb
  exact hguards.kept

/-- A run of two files is given up at the barrier, and the extractor breaks down on the first of
them; the second is not opened yet. In between a batch was refused since its id was taken. -/
example :
    let broken : Extractor := { name := "broken", extract := fun _ => .panicked (some "no") }
    let table : ExtractorTable := { routes := [.when (fun _ => true) broken] }
    let ms : List Move := List.flatten [
      [.begin, .begin, .turn 0 (.submit "a.txt" none [97]), .turn 1 (.submit "b.txt" none [98]),
        .turn 0 (.submit "c.txt" none [99]), .turn 0 (.prepare table {} (some "s")),
        .turn 1 (.prepare table {} (some "s")), .turn 0 (.session .start)],
      List.replicate 7 (.turn 0 (.session (.act .run))), [.turn 0 (.session .abandon)],
      List.replicate 6 (.turn 0 (.session (.act (.worker 0))))]
    (play { hub := {} } ms).hub.spools.files = [.removed, .removed, .readable [99]] := by
  decide +kernel

end Depot
end Intake
