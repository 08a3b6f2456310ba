import Mathlib.Data.List.Induction
import Intake.Bench.Work
import Intake.Proofs.Assessments
import Intake.Proofs.Calls

/-!
# Uploads are atomic

A form is any list of fields, with or without a fault behind it. `collect_eq` says what the loop
over the fields has gathered after all of them, or after some of them: the files up to the limit
in their order, how many there were, and the last name of a session. From that `open?_eq` says
everything that an upload can come to. Either a session is opened with one new entry, or there is
one error and nothing is left: what was spooled for the request is removed again, and the
registry was not touched. How the field that names the session is read as a text is up to any
decoder; the type of a file is kept as the form has it.
-/

namespace Intake

/-! ## Files that are removed again -/

/-- Removing the files behind some others leaves only their places. -/
theorem Spools.removeAll_range (old new : List FileState) :
    Spools.removeAll { files := old ++ new } (List.range' old.length new.length)
      = { files := old ++ List.replicate new.length .removed } := by
  induction new generalizing old with
  | nil => rfl
  | cons x new ih =>
      have hfirst : Spools.remove { files := old ++ x :: new } old.length
          = { files := (old ++ [.removed]) ++ new } := by
        unfold Spools.remove
        simp
      have hlen : (old ++ [FileState.removed]).length = old.length + 1 := by simp
      rw [List.length_cons, List.range'_succ]
      show Spools.removeAll (Spools.remove _ old.length) _ = _
      rw [hfirst, ← hlen, ih, List.replicate_succ, List.append_assoc]
      rfl

namespace Http.Upload

/-! ## What the fields say -/

variable {decode : Decoder}

/-- The fields with files. -/
def filesOf (fields : List Field) : List Field :=
  fields.filter (·.name = some fileField)

/-- The last field that names the session. -/
def guidOf? (fields : List Field) : Option Field :=
  (fields.filter (·.name = some sessionField)).getLast?

/-- The submission of a field that is spooled at a place. -/
def submission (spool : Spool) (f : Field) : Submission where
  fileName := f.fileName.getD namelessFile
  declared := Submission.declaredOf (f.type.map Media.Header.text)
  size := f.content.length
  spool := spool

/-- The submissions of fields that are spooled one behind the other. -/
def submissions (spool : Spool) : List Field → List Submission
  | [] => []
  | f :: fs => submission spool f :: submissions (spool + 1) fs

theorem submissions_append (spool : Spool) (fs gs : List Field) :
    submissions spool (fs ++ gs) = submissions spool fs ++ submissions (spool + fs.length) gs := by
  induction fs generalizing spool with
  | nil => rfl
  | cons f fs ih =>
      show submission spool f :: submissions (spool + 1) (fs ++ gs) = _
      rw [ih, List.length_cons, Nat.add_comm fs.length 1, ← Nat.add_assoc]
      rfl

theorem length_submissions (spool : Spool) (fs : List Field) :
    (submissions spool fs).length = fs.length := by
  induction fs generalizing spool with
  | nil => rfl
  | cons f fs ih => exact congrArg (· + 1) (ih (spool + 1))

theorem spools_submissions (spool : Spool) (fs : List Field) :
    (submissions spool fs).map Submission.spool = List.range' spool fs.length := by
  induction fs generalizing spool with
  | nil => rfl
  | cons f fs ih => exact congrArg (spool :: ·) (ih (spool + 1))

/-- What was gathered of some fields. -/
def gathered (decode : Decoder) (maxFiles : Nat) (fields : List Field) (spools : Spools) : Upload where
  session := (guidOf? fields).map (Field.text decode)
  files := submissions spools.files.length ((filesOf fields).take maxFiles)
  submitted := (filesOf fields).length

/-- What was spooled of some fields, behind what there was. -/
def spooled (maxFiles : Nat) (fields : List Field) (spools : Spools) : Spools where
  files := spools.files ++ ((filesOf fields).take maxFiles).map (.readable ·.content)

theorem filesOf_file {f : Field} (fields : List Field) (hf : f.name = some fileField) :
    filesOf (fields ++ [f]) = filesOf fields ++ [f] := by
  unfold filesOf
  rw [List.filter_append, List.filter_cons_of_pos (by simpa using hf)]
  rfl

theorem filesOf_other {f : Field} (fields : List Field) (hf : f.name ≠ some fileField) :
    filesOf (fields ++ [f]) = filesOf fields := by
  unfold filesOf
  rw [List.filter_append, List.filter_cons_of_neg (by simpa using hf)]
  exact List.append_nil _

theorem guidOf?_guid {f : Field} (fields : List Field) (hf : f.name = some sessionField) :
    guidOf? (fields ++ [f]) = some f := by
  unfold guidOf?
  rw [List.filter_append, List.filter_cons_of_pos (by simpa using hf)]
  exact List.getLast?_concat

theorem guidOf?_other {f : Field} (fields : List Field) (hf : f.name ≠ some sessionField) :
    guidOf? (fields ++ [f]) = guidOf? fields := by
  unfold guidOf?
  rw [List.filter_append, List.filter_cons_of_neg (by simpa using hf)]
  exact congrArg _ (List.append_nil _)

/-- One more file is spooled, unless there are as many as may be. -/
theorem take_file {maxFiles : Nat} {fields : List Field} {spools : Spools} {f : Field}
    (hf : f.name = some fileField) :
    take decode maxFiles (gathered decode maxFiles fields spools, spooled maxFiles fields spools) f
      = (gathered decode maxFiles (fields ++ [f]) spools, spooled maxFiles (fields ++ [f]) spools) := by
  have hguid : f.name ≠ some sessionField := by rw [hf]; decide
  unfold take gathered spooled
  dsimp only
  rw [if_neg hguid, if_pos hf, guidOf?_other fields hguid, filesOf_file fields hf]
  by_cases hroom : (filesOf fields).length < maxFiles
  · have hall : (filesOf fields).take maxFiles = filesOf fields := by
      rw [List.take_of_length_le (by omega)]
    have hnew : (filesOf fields ++ [f]).take maxFiles = filesOf fields ++ [f] := by
      rw [List.take_of_length_le (by rw [List.length_append]; exact hroom)]
    rw [if_neg (by omega), hall, hnew, submissions_append]
    simp [Submission.spooled, Spools.write, submissions, submission]
  · have hnew : (filesOf fields ++ [f]).take maxFiles = (filesOf fields).take maxFiles := by
      rw [List.take_append_of_le_length (by omega)]
    rw [if_pos (by omega), hnew]
    simp

/-- **What the loop over the fields has gathered**, whatever fields there are. -/
theorem collect_eq (maxFiles : Nat) (fields : List Field) (spools : Spools) :
    collect decode maxFiles fields spools
      = (gathered decode maxFiles fields spools, spooled maxFiles fields spools) := by
  -- from the end, where the loop has all other fields behind it
  induction fields using List.reverseRecOn with
  | nil =>
      unfold gathered spooled
      simp [collect, filesOf, guidOf?, submissions]
  | append_singleton fields f ih =>
      have hstep : collect decode maxFiles (fields ++ [f]) spools
          = take decode maxFiles (collect decode maxFiles fields spools) f := by
        unfold collect
        rw [List.foldl_append]
        rfl
      rw [hstep, ih]
      by_cases hfile : f.name = some fileField
      · exact take_file hfile
      · have hfiles := filesOf_other fields hfile
        unfold take gathered spooled
        dsimp only
        rw [hfiles]
        by_cases hguid : f.name = some sessionField
        · rw [if_pos hguid, guidOf?_guid fields hguid]
          rfl
        · rw [if_neg hguid, if_neg hfile, guidOf?_other fields hguid]

/-! ## What an upload comes to -/

/-- The id of the session that a form asks for. -/
def idFor (decode : Decoder) (form : Form) (hub : Hub) : String :=
  Identifier.resolve ((guidOf? form.fields).map (Field.text decode)) (Identifier.fresh hub.serial)

/-- What is left when the files of a form were removed again. -/
def cleared (settings : SessionSettings) (form : Form) (hub : Hub) : Hub :=
  { hub with spools := {
      files := hub.spools.files
        ++ List.replicate ((filesOf form.fields).take settings.maxFiles).length .removed } }

/-- The session that is opened for a form. -/
def sessionFor (decode : Decoder) (table : ExtractorTable) (settings : SessionSettings)
    (form : Form) (hub : Hub) : Prepared where
  id := idFor decode form hub
  handle := hub.registry.entries.length
  files := submissions hub.spools.files.length (filesOf form.fields)
  table := table
  settings := settings
  mirror := some { capacity := queueCapacity (filesOf form.fields).length }

/-- What is there when a session was opened for a form. -/
def opened (decode : Decoder) (form : Form) (hub : Hub) : Hub :=
  { hub with
    registry := hub.registry.opened (idFor decode form hub)
    spools := { files := hub.spools.files ++ (filesOf form.fields).map (.readable ·.content) }
    serial := hub.serial + 1 }

variable {table : ExtractorTable} {settings : SessionSettings} {form : Form} {hub : Hub}

theorem removeAll_spooled (maxFiles : Nat) (fields : List Field) (spools : Spools) :
    (spooled maxFiles fields spools).removeAll
        ((gathered decode maxFiles fields spools).files.map Submission.spool)
      = { files := spools.files
            ++ List.replicate ((filesOf fields).take maxFiles).length .removed } := by
  have hrange := Spools.removeAll_range spools.files
    (((filesOf fields).take maxFiles).map fun f => FileState.readable f.content)
  rw [List.length_map] at hrange
  unfold gathered spooled
  rw [spools_submissions]
  exact hrange

/-- A fault goes before everything else. -/
theorem open?_fault {x : FormError} (hf : form.fault = some x) :
    open? decode table settings form hub
      = (.error (errorOfFault x), cleared settings form hub) := by
  unfold open? discard cleared
  rw [collect_eq, hf, ← removeAll_spooled]

theorem open?_batch {x : BatchError} (hf : form.fault = none)
    (hbatch : settings.validateBatch (filesOf form.fields).length = .error x) :
    open? decode table settings form hub
      = (.error (.badRequest x.message), cleared settings form hub) := by
  unfold open? discard cleared
  rw [collect_eq, hf, ← removeAll_spooled]
  dsimp only
  rw [show (gathered decode settings.maxFiles form.fields hub.spools).submitted
    = (filesOf form.fields).length from rfl, hbatch]
  rfl

/-- A batch in order and what is opened for it, if its id is free. -/
theorem open?_batch_ok (hf : form.fault = none) (hsome : 1 ≤ (filesOf form.fields).length)
    (hfew : (filesOf form.fields).length ≤ settings.maxFiles) :
    open? decode table settings form hub
      = if hub.registry.contains (idFor decode form hub) then
          (.error (.conflict ("Session already open: " ++ idFor decode form hub)),
            { cleared settings form hub with serial := hub.serial + 1 })
        else (.ok (sessionFor decode table settings form hub), opened decode form hub) := by
  have hbatch : settings.validateBatch (filesOf form.fields).length = .ok () := by
    unfold SessionSettings.validateBatch
    rw [if_neg (by omega), if_neg (by omega)]
  have hall : (filesOf form.fields).take settings.maxFiles = filesOf form.fields :=
    List.take_of_length_le hfew
  have hremoved := @removeAll_spooled decode settings.maxFiles form.fields hub.spools
  unfold open? Prepared.open? cleared
  rw [collect_eq, hf]
  dsimp only
  rw [hremoved]
  unfold gathered spooled
  rw [hall]
  dsimp only
  rw [length_submissions, hbatch]
  dsimp only
  have hid : Identifier.resolve ((guidOf? form.fields).map (Field.text decode))
      (Identifier.fresh hub.serial) = idFor decode form hub := rfl
  rw [Registry.open?_eq, hid]
  by_cases hfree : hub.registry.contains (idFor decode form hub) = true
  · rw [if_pos hfree, if_pos hfree]
    rfl
  · rw [if_neg hfree, if_neg hfree]
    unfold sessionFor Prepared.takeMirror
    dsimp only
    rw [length_submissions]
    rfl

theorem resolve_some {text new : String} (h : Text.blank text = false) :
    Identifier.resolve (some text) new = Text.trim text := by
  have hne : Text.trim text ≠ "" := fun ht => by
    rw [(blank_iff_trim text).mpr ht] at h
    exact absurd h (by decide)
  unfold Identifier.resolve
  dsimp only
  rw [if_neg (by simpa using hne)]

theorem resolve_blank {text new : String} (h : Text.blank text = true) :
    Identifier.resolve (some text) new = new := by
  unfold Identifier.resolve
  dsimp only
  rw [(blank_iff_trim text).mp h]
  rfl

/-! ## What a bench makes of an upload -/

end Http.Upload

namespace Bench

variable {b : Bench} {s : Http.Service} {r : Http.Request} {hub : Hub}

theorem react_upload (hm : r.method = "POST") (hp : r.path = "/upload") :
    s.react r hub = s.upload r hub := by
  unfold Http.Service.react
  rw [hm, hp]
  rfl

/-- How a run begins for a client that reads the response, or does not. -/
def begun (p : Prepared) (now : Nat) (read : Bool) : Run :=
  let r := Run.start p now
  if read then r else { r with relay := r.relay.abandonMirror }

theorem beginRequest_answer {response : Http.Response}
    (h : s.react r b.hub = (.answer response, hub)) (read : Bool) :
    (b.beginRequest s r read).2 = { b with hub } := by
  unfold beginRequest
  rw [h]

/-- A session on a new seat runs there. -/
theorem startRun?_seat (b : Bench) (p : Prepared) :
    (b.seat p).2.startRun? b.seats.length
      = some (Bench.enroll { b with seats := b.seats ++ [.running (.start p b.hub.now)] }
        [.seatRelay b.seats.length]) := by
  have hat : (b.seats ++ [Seat.prepared p])[b.seats.length]? = some (.prepared p) :=
    List.getElem?_concat_length
  have hset : ∀ x y : Seat, (b.seats ++ [x]).set b.seats.length y = b.seats ++ [y] :=
    fun x y => by simp
  unfold startRun? seat putRun
  dsimp only
  rw [hat]
  dsimp only
  rw [hset]

/-- A stream that lets go of the mirror of the last seat changes the run there. -/
theorem letGo_mirror {b : Bench} {seats : List Seat} {run : Run}
    (hs : b.seats = seats ++ [.running run]) :
    b.letGo (.mirror seats.length)
      = { b with
          seats := seats ++ [.running { run with relay := run.relay.abandonMirror }] } := by
  have hat : b.runAt? seats.length = some run := by
    unfold runAt?
    rw [hs, List.getElem?_concat_length]
  unfold letGo putRun
  dsimp only
  rw [hat]
  dsimp only
  rw [hs]
  simp

theorem beginRequest_run {p : Prepared} (h : s.react r b.hub = (.run p, hub))
    (hm : r.method = "POST") (read : Bool) :
    (b.beginRequest s r read).2.hub = hub
      ∧ (b.beginRequest s r read).2.seats = b.seats ++ [.running (begun p hub.now read)] := by
  have hstart := startRun?_seat { b with hub } p
  unfold beginRequest
  rw [h, hm]
  dsimp only
  rw [show (({ b with hub } : Bench).seat p).1 = b.seats.length from rfl, hstart]
  cases read with
  | true => exact ⟨rfl, rfl⟩
  | false =>
      show (Bench.letGo _ (.mirror b.seats.length)).hub = hub
        ∧ (Bench.letGo _ (.mirror b.seats.length)).seats = _
      rw [letGo_mirror rfl]
      exact ⟨rfl, rfl⟩

end Bench

namespace Http.Upload

/-! ## The theorem -/

/-- What a form must be for a session to be opened. -/
structure Accepts (decode : Decoder) (settings : SessionSettings) (form : Form) (hub : Hub) :
    Prop where
  read : form.fault = none
  some : 1 ≤ (filesOf form.fields).length
  few : (filesOf form.fields).length ≤ settings.maxFiles
  free : hub.registry.contains (idFor decode form hub) = false

/-- A submission is the file of a field. -/
structure Holds (spools : Spools) (f : Field) (s : Submission) : Prop where
  fileName : s.fileName = f.fileName.getD namelessFile
  declared : s.declared = Submission.declaredOf (f.type.map Media.Header.text)
  size : s.size = f.content.length
  content : spools.state s.spool = .readable f.content

theorem holds_submissions (old : List FileState) (fs : List Field) :
    List.Forall₂ (Holds { files := old ++ fs.map (.readable ·.content) }) fs
      (submissions old.length fs) := by
  induction fs generalizing old with
  | nil => exact .nil
  | cons f fs ih =>
      have hrest := ih (old ++ [.readable f.content])
      rw [List.length_append, List.append_assoc] at hrest
      refine .cons ⟨rfl, rfl, rfl, ?_⟩ hrest
      unfold Spools.state submission
      simp

/-- What is there when a session was opened for a form. -/
structure Opens (decode : Decoder) (table : ExtractorTable) (settings : SessionSettings)
    (form : Form) (hub : Hub) (p : Prepared) (hub' : Hub) : Prop where
  accepts : Accepts decode settings form hub
  id : p.id = idFor decode form hub
  /-- Its files are those of the form, in their order, and can be read. -/
  files : List.Forall₂ (Holds hub'.spools) (filesOf form.fields) p.files
  table : p.table = table
  settings : p.settings = settings
  /-- There is one new entry, which is its own. -/
  handle : p.handle = hub.registry.entries.length
  registry : hub'.registry = hub.registry.opened p.id
  mirror : p.mirror = some { capacity := queueCapacity p.files.length }
  /-- What was spooled before is untouched. -/
  spools : hub.spools.files <+: hub'.spools.files
  now : hub'.now = hub.now
  gates : hub'.gates = hub.gates

/-- What is there when no session was opened for a form. -/
structure Refuses (decode : Decoder) (settings : SessionSettings) (form : Form) (hub : Hub)
    (e : ApiError) (hub' : Hub) : Prop where
  refuses : ¬ Accepts decode settings form hub
  registry : hub'.registry = hub.registry
  /-- Of the request no more is left than the places of its files. -/
  spools : ∃ n ≤ settings.maxFiles,
    hub'.spools.files = hub.spools.files ++ List.replicate n .removed
  now : hub'.now = hub.now
  gates : hub'.gates = hub.gates
  /-- A fault goes before the size of the batch, and that before the id. -/
  fault : ∀ x, form.fault = some x → e = errorOfFault x
  noFiles : form.fault = none → (filesOf form.fields).length = 0 →
    e = .badRequest "at least 1 file required"
  tooMany : form.fault = none → 1 ≤ (filesOf form.fields).length →
    settings.maxFiles < (filesOf form.fields).length →
    e = .badRequest ("only " ++ toString settings.maxFiles ++ " files maximum allowed")
  conflict : form.fault = none → 1 ≤ (filesOf form.fields).length →
    (filesOf form.fields).length ≤ settings.maxFiles →
    hub.registry.contains (idFor decode form hub) = true
      ∧ e = .conflict ("Session already open: " ++ idFor decode form hub)

/-- What holds of a request for an upload with a form, on a bench. -/
structure Served (b : Bench) (s : Service) (r : Request) (form : Form) (read : Bool) : Prop where
  /-- For a session that is opened, one run is started. -/
  runs : ∀ p hub', open? s.decode s.table s.settings form b.hub = (.ok p, hub') →
    (b.beginRequest s r read).2.hub = hub'
      ∧ (b.beginRequest s r read).2.seats = b.seats ++ [.running (Bench.begun p hub'.now read)]
  /-- Otherwise none is, and the error is answered. -/
  answers : ∀ e hub', open? s.decode s.table s.settings form b.hub = (.error e, hub') →
    s.react r b.hub = (.answer (Service.ofError e), hub')
      ∧ (b.beginRequest s r read).2 = { b with hub := hub' }

theorem served {b : Bench} {s : Service} {r : Request} {boundary : String}
    (hm : r.method = "POST") (hp : r.path = "/upload")
    (hb : Service.boundaryOf? r = some boundary)
    (hform : Form.readWithin s.config.upload.maxBodyBytes boundary r.body = form) (read : Bool) :
    Served b s r form read := by
  have hreact : s.react r b.hub = s.upload r b.hub := Bench.react_upload hm hp
  constructor
  · intro p hub' ho
    refine Bench.beginRequest_run ?_ hm read
    rw [hreact]
    unfold Service.upload
    rw [hb]
    dsimp only
    rw [hform, ho]
  · intro e hub' ho
    have hanswer : s.react r b.hub = (.answer (Service.ofError e), hub') := by
      rw [hreact]
      unfold Service.upload
      rw [hb]
      dsimp only
      rw [hform, ho]
    exact ⟨hanswer, Bench.beginRequest_answer hanswer read⟩

/-- What holds of an upload. -/
structure Atomic (decode : Decoder) (table : ExtractorTable) (settings : SessionSettings)
    (form : Form) (hub : Hub) : Prop where
  /-- A session is opened exactly for a form in order. -/
  accepts : Accepts decode settings form hub ↔
    ∃ p hub', open? decode table settings form hub = (.ok p, hub')
  opens : ∀ p hub', open? decode table settings form hub = (.ok p, hub') →
    Opens decode table settings form hub p hub'
  refuses : ∀ e hub', open? decode table settings form hub = (.error e, hub') →
    Refuses decode settings form hub e hub'
  /-- The id is what the last field for it says, without the blanks around it. -/
  named : ∀ f, guidOf? form.fields = some f → Text.blank (f.text decode) = false →
    idFor decode form hub = Text.trim (f.text decode)
  /-- If there is none, or it is blank, a new id is taken. -/
  unnamed : (∀ f, guidOf? form.fields = some f → Text.blank (f.text decode) = true) →
    idFor decode form hub = Identifier.fresh hub.serial
  /-- After any number of fields there are no more files than may be. -/
  bounded : ∀ n, (collect decode settings.maxFiles (form.fields.take n) hub.spools).1.files.length
      ≤ settings.maxFiles
    ∧ (collect decode settings.maxFiles (form.fields.take n) hub.spools).2.files.length
      ≤ hub.spools.files.length + settings.maxFiles
  /-- A request with the form starts one run for the session that is opened, or none. -/
  served : ∀ (b : Bench) (s : Service) (r : Request) (boundary : String) (read : Bool),
    b.hub = hub → s.decode = decode → s.table = table → s.settings = settings →
    r.method = "POST" → r.path = "/upload" → Service.boundaryOf? r = some boundary →
    Form.readWithin s.config.upload.maxBodyBytes boundary r.body = form → Served b s r form read

theorem accepted (h : Accepts decode settings form hub) :
    open? decode table settings form hub
      = (.ok (sessionFor decode table settings form hub), opened decode form hub) := by
  rw [open?_batch_ok h.read h.some h.few, if_neg (by rw [h.free]; decide)]

theorem opens (h : Accepts decode settings form hub) :
    Opens decode table settings form hub (sessionFor decode table settings form hub)
      (opened decode form hub) where
  accepts := h
  id := rfl
  files := holds_submissions hub.spools.files (filesOf form.fields)
  table := rfl
  settings := rfl
  handle := rfl
  registry := rfl
  mirror := by
    unfold sessionFor
    rw [length_submissions]
  spools := List.prefix_append _ _
  now := rfl
  gates := rfl

theorem cleared_spools (settings : SessionSettings) (form : Form) (hub : Hub) :
    ∃ n ≤ settings.maxFiles, (cleared settings form hub).spools.files
      = hub.spools.files ++ List.replicate n .removed :=
  ⟨_, List.length_take_le _ _, rfl⟩

theorem refused_fault {x : FormError} (hf : form.fault = some x) :
    Refuses decode settings form hub (errorOfFault x) (cleared settings form hub) where
  refuses h := absurd h.read (by rw [hf]; simp)
  registry := rfl
  spools := cleared_spools settings form hub
  now := rfl
  gates := rfl
  fault y hy := by
    rw [hf] at hy
    cases hy
    rfl
  noFiles hn := absurd hn (by rw [hf]; simp)
  tooMany hn := absurd hn (by rw [hf]; simp)
  conflict hn := absurd hn (by rw [hf]; simp)

theorem refused_batch {x : BatchError} (hf : form.fault = none)
    (hbatch : settings.validateBatch (filesOf form.fields).length = .error x) :
    Refuses decode settings form hub (.badRequest x.message) (cleared settings form hub) := by
  have hcases : (filesOf form.fields).length = 0 ∧ x = .noFiles
      ∨ 1 ≤ (filesOf form.fields).length ∧ settings.maxFiles < (filesOf form.fields).length
        ∧ x = .tooManyFiles settings.maxFiles (filesOf form.fields).length := by
    unfold SessionSettings.validateBatch at hbatch
    split at hbatch
    · rename_i hz
      exact Or.inl ⟨hz, (Except.error.inj hbatch).symm⟩
    · split at hbatch
      · rename_i hz hm
        exact Or.inr ⟨by omega, hm, (Except.error.inj hbatch).symm⟩
      · exact absurd hbatch (by simp)
  have hsize : (filesOf form.fields).length = 0
      ∨ settings.maxFiles < (filesOf form.fields).length :=
    hcases.imp And.left (·.2.1)
  refine ⟨fun h => ?_, rfl, cleared_spools settings form hub, rfl, rfl, fun y hy => ?_, ?_, ?_, ?_⟩
  · have hsome := h.some
    have hfew := h.few
    omega
  · exact absurd hy (by rw [hf]; simp)
  · intro _ hz
    rcases hcases with ⟨_, rfl⟩ | ⟨hsome, _⟩
    · rfl
    · omega
  · intro _ hsome _
    rcases hcases with ⟨hz, _⟩ | ⟨_, _, rfl⟩
    · omega
    · rfl
  · intro _ hsome hfew
    omega

theorem refused_open (hf : form.fault = none) (hsome : 1 ≤ (filesOf form.fields).length)
    (hfew : (filesOf form.fields).length ≤ settings.maxFiles)
    (hopen : hub.registry.contains (idFor decode form hub) = true) :
    Refuses decode settings form hub (.conflict ("Session already open: " ++ idFor decode form hub))
      { cleared settings form hub with serial := hub.serial + 1 } where
  refuses h := absurd h.free (by rw [hopen]; decide)
  registry := rfl
  spools := cleared_spools settings form hub
  now := rfl
  gates := rfl
  fault y hy := absurd hy (by rw [hf]; simp)
  noFiles _ hz := absurd hz (by omega)
  tooMany _ _ hm := absurd hm (by omega)
  conflict _ _ _ := ⟨hopen, rfl⟩

/-- A form that is not in order is refused for the first reason there is. -/
theorem refused (h : ¬ Accepts decode settings form hub) :
    ∃ e hub', open? decode table settings form hub = (.error e, hub')
      ∧ Refuses decode settings form hub e hub' := by
  cases hf : form.fault with
  | some x => exact ⟨_, _, open?_fault hf, refused_fault hf⟩
  | none =>
      cases hbatch : settings.validateBatch (filesOf form.fields).length with
      | error x => exact ⟨_, _, open?_batch hf hbatch, refused_batch hf hbatch⟩
      | ok _ =>
          have hsize : 1 ≤ (filesOf form.fields).length
              ∧ (filesOf form.fields).length ≤ settings.maxFiles := by
            unfold SessionSettings.validateBatch at hbatch
            split at hbatch
            · exact absurd hbatch (by simp)
            · split at hbatch
              · exact absurd hbatch (by simp)
              · omega
          have hopen : hub.registry.contains (idFor decode form hub) = true := by
            by_contra hfree
            exact h ⟨hf, hsize.1, hsize.2, by simpa using hfree⟩
          refine ⟨_, _, ?_, refused_open hf hsize.1 hsize.2 hopen⟩
          rw [open?_batch_ok hf hsize.1 hsize.2, if_pos hopen]

/-- After some fields no more is spooled than may be. -/
theorem collect_bounded (maxFiles : Nat) (fields : List Field) (spools : Spools) :
    (collect decode maxFiles fields spools).1.files.length ≤ maxFiles
      ∧ (collect decode maxFiles fields spools).2.files.length ≤ spools.files.length + maxFiles := by
  have hle : ((filesOf fields).take maxFiles).length ≤ maxFiles := List.length_take_le _ _
  rw [collect_eq]
  unfold gathered spooled
  dsimp only
  rw [length_submissions, List.length_append, List.length_map]
  omega

/-- **An upload is atomic**: it opens one session with all files of the form, or it is refused
for one reason and leaves nothing behind. -/
theorem upload_atomic (decode : Decoder) (table : ExtractorTable) (settings : SessionSettings)
    (form : Form) (hub : Hub) : Atomic decode table settings form hub := by
  constructor
  case accepts =>
    refine ⟨fun h => ⟨_, _, accepted h⟩, fun ⟨p, hub', ho⟩ => ?_⟩
    by_contra h
    obtain ⟨e, hub'', he, _⟩ := refused h
    rw [he] at ho
    cases ho
  case opens =>
    intro p hub' ho
    by_cases h : Accepts decode settings form hub
    · rw [accepted h] at ho
      cases ho
      exact opens h
    · obtain ⟨e, hub'', he, _⟩ := refused h
      rw [he] at ho
      cases ho
  case refuses =>
    intro e hub' ho
    by_cases h : Accepts decode settings form hub
    · rw [accepted h] at ho
      cases ho
    · obtain ⟨e', hub'', he, hr⟩ := refused h
      rw [he] at ho
      cases ho
      exact hr
  case named =>
    intro f hf hblank
    unfold idFor
    rw [hf]
    exact resolve_some hblank
  case unnamed =>
    intro hblank
    unfold idFor
    cases hf : guidOf? form.fields with
    | none => rfl
    | some f => exact resolve_blank (hblank f hf)
  case bounded => exact fun n => collect_bounded _ _ _
  case served =>
    rintro b s r boundary read rfl rfl rfl rfl hm hp hb hform
    exact served hm hp hb hform read

end Http.Upload
end Intake
