import Intake.Config
import Intake.Proofs.Documents
import Intake.Proofs.Fitting

/-!
# Configurations from texts that give some of the keys

Each of the nine keys may be given or not, and so may whole sections, beside keys that nobody
knows. `Given` is what a text gives, and `Given.filled` the configuration with a built-in value
for each key that it does not give. The sections are read one by one (`server_filled`,
`upload_filled`, `logging_filled`), which is where an absent section and an empty one come to the
same; the three checks come after that.

A configuration that was read gives all nine keys when it is written, with numbers that are no
larger than those of the text it was read from. So it is read again as it is, if the serializer
does what is relied on (`Toml.Serializer.Faithful`).
-/

namespace Intake.Config

/-- The keys that a text gives, with their values. -/
structure Given where
  host : Option String := none
  port : Option Nat := none
  timeoutSecs : Option Nat := none
  maxFiles : Option Nat := none
  maxBodyBytes : Option Nat := none
  streamProgress : Option Bool := none
  csvPreviewRows : Option Nat := none
  sseAttachGraceMs : Option Nat := none
  level : Option String := none

/-- The names of keys, each with its value if there is one. -/
abbrev Keys := List (String × Option Toml)

/-- A whole number as a value. -/
def number (n : Nat) : Toml := .integer n

namespace Given

variable (g : Given)

/-- The keys of the listener. -/
def server : Keys :=
  [("host", g.host.map .string), ("port", g.port.map number)]

/-- The keys on upload sessions. -/
def upload : Keys :=
  [("timeout_secs", g.timeoutSecs.map number), ("max_files", g.maxFiles.map number),
    ("max_body_bytes", g.maxBodyBytes.map number),
    ("stream_progress", g.streamProgress.map .boolean),
    ("csv_preview_rows", g.csvPreviewRows.map number),
    ("sse_attach_grace_ms", g.sseAttachGraceMs.map number)]

/-- The keys on logging. -/
def logging : Keys :=
  [("level", g.level.map .string)]

/-- Holds of the numbers that a text can give: a port has 16 bits, and the others end where the
whole numbers of TOML do. -/
structure InRange : Prop where
  port : ∀ n ∈ g.port, n < 2 ^ 16
  timeoutSecs : ∀ n ∈ g.timeoutSecs, n < 2 ^ 63
  maxFiles : ∀ n ∈ g.maxFiles, n < 2 ^ 63
  maxBodyBytes : ∀ n ∈ g.maxBodyBytes, n < 2 ^ 63
  csvPreviewRows : ∀ n ∈ g.csvPreviewRows, n < 2 ^ 63
  sseAttachGraceMs : ∀ n ∈ g.sseAttachGraceMs, n < 2 ^ 63

/-- The configuration with the values that are given, and a built-in one for each other key. -/
def filled : Config where
  server := {
    host := g.host.getD "127.0.0.1"
    port := g.port.getD 9001 }
  upload := {
    timeoutSecs := g.timeoutSecs.getD 30
    maxFiles := g.maxFiles.getD 10
    maxBodyBytes := g.maxBodyBytes.getD 10485760
    streamProgress := g.streamProgress.getD true
    csvPreviewRows := g.csvPreviewRows.getD 10
    sseAttachGraceMs := g.sseAttachGraceMs.getD 1000 }
  logging := { level := g.level.getD "info" }

end Given

/-- Holds if a section gives just these values for these keys, beside any others. -/
def Shows : Option Toml → Keys → Prop
  | none, keys => ∀ k ∈ keys, k.2 = none
  | some (.table _ es), keys => ∀ k ∈ keys, Toml.get? es k.1 = k.2
  | some _, _ => False

/-- Holds of the root table of a text that gives these keys. -/
structure Given.In (g : Given) (root : Toml.Entries) : Prop where
  server : Shows (Toml.get? root "server") g.server
  upload : Shows (Toml.get? root "upload") g.upload
  logging : Shows (Toml.get? root "logging") g.logging

/-- Holds of a text that is refused, with the reason. -/
def Refused (r : Except ConfigError Config) (why : String) : Prop :=
  ∃ e, r = .error e ∧ e.message = "Configuration error: " ++ why

/-- What comes of a text that gives these keys. -/
structure Given.Outcome (g : Given) (r : Except ConfigError Config) : Prop where
  timeoutZero : g.filled.upload.timeoutSecs = 0 →
    Refused r "upload.timeout_secs must be greater than 0"
  timeoutTooLong : 86400 < g.filled.upload.timeoutSecs →
    Refused r "upload.timeout_secs must be at most 86400"
  noFiles : 0 < g.filled.upload.timeoutSecs → g.filled.upload.timeoutSecs ≤ 86400 →
    g.filled.upload.maxFiles = 0 → Refused r "upload.max_files must be greater than 0"
  usable : 0 < g.filled.upload.timeoutSecs → g.filled.upload.timeoutSecs ≤ 86400 →
    0 < g.filled.upload.maxFiles → r = .ok g.filled

/-! ## Keys -/

theorem field_text (builtIn : String) (o : Option String) :
    field textOf? builtIn (o.map .string) = some (o.getD builtIn) := by
  cases o <;> rfl

theorem field_flag (builtIn : Bool) (o : Option Bool) :
    field flagOf? builtIn (o.map .boolean) = some (o.getD builtIn) := by
  cases o <;> rfl

/-- A number that is not too large is taken as it is. -/
theorem field_number {largest : Nat} (builtIn : Nat) {o : Option Nat}
    (h : ∀ n ∈ o, n ≤ largest) :
    field (numberOf? largest) builtIn (o.map number) = some (o.getD builtIn) := by
  cases o with
  | none => rfl
  | some n =>
      have hn := h n rfl
      show numberOf? largest (.integer n) = some n
      rw [numberOf?, if_pos (by simp; omega), Int.toNat_natCast]

variable {g : Given}

/-! ## Sections -/

theorem server_filled {v : Option Toml} (h : Shows v g.server) (hg : g.InRange) :
    field readServer {} v = some g.filled.server := by
  have hsmall : ∀ n ∈ g.port, n ≤ maxPort := fun n hn => Nat.le_of_lt_succ (hg.port n hn)
  match v, h with
  | none, h =>
      -- an absent section gives none of its keys, so each has its built-in value here too
      simp only [Shows, Given.server, List.forall_mem_cons, Option.map_eq_none_iff] at h
      obtain ⟨hhost, hport, -⟩ := h
      rw [Given.filled, hhost, hport]
      rfl
  | some (.table making es), h =>
      simp only [Shows, Given.server, List.forall_mem_cons] at h
      obtain ⟨hhost, hport, -⟩ := h
      show readServer (.table making es) = _
      simp only [readServer, lookup, hhost, hport, field_text, field_number _ hsmall]
      rfl

theorem upload_filled {v : Option Toml} (h : Shows v g.upload) (hg : g.InRange) :
    field readUpload {} v = some g.filled.upload := by
  have hsmall : ∀ {o : Option Nat}, (∀ n ∈ o, n < 2 ^ 63) → ∀ n ∈ o, n ≤ maxNumber :=
    fun h n hn => Nat.le_trans (Nat.le_of_lt (h n hn)) (by decide)
  match v, h with
  | none, h =>
      simp only [Shows, Given.upload, List.forall_mem_cons, Option.map_eq_none_iff] at h
      obtain ⟨htimeout, hfiles, hbody, hprogress, hrows, hgrace, -⟩ := h
      rw [Given.filled, htimeout, hfiles, hbody, hprogress, hrows, hgrace]
      rfl
  | some (.table making es), h =>
      simp only [Shows, Given.upload, List.forall_mem_cons] at h
      obtain ⟨htimeout, hfiles, hbody, hprogress, hrows, hgrace, -⟩ := h
      show readUpload (.table making es) = _
      simp only [readUpload, lookup, htimeout, hfiles, hbody, hprogress, hrows, hgrace, field_flag,
        field_number _ (hsmall hg.timeoutSecs), field_number _ (hsmall hg.maxFiles),
        field_number _ (hsmall hg.maxBodyBytes), field_number _ (hsmall hg.csvPreviewRows),
        field_number _ (hsmall hg.sseAttachGraceMs)]
      rfl

theorem logging_filled {v : Option Toml} (h : Shows v g.logging) :
    field readLogging {} v = some g.filled.logging := by
  match v, h with
  | none, h =>
      simp only [Shows, Given.logging, List.forall_mem_cons, Option.map_eq_none_iff] at h
      rw [Given.filled, h.1]
      rfl
  | some (.table making es), h =>
      simp only [Shows, Given.logging, List.forall_mem_cons] at h
      show readLogging (.table making es) = _
      simp only [readLogging, lookup, h.1, field_text]
      rfl

/-! ## Texts -/

theorem ofEntries?_filled {root : Toml.Entries} (h : g.In root) (hg : g.InRange) :
    ofEntries? root = some g.filled := by
  rw [ofEntries?, server_filled h.server hg, upload_filled h.upload hg, logging_filled h.logging]
  rfl

/-- The checks come in their order, and nothing else is refused. -/
theorem Given.Outcome.of_check (g : Given) : g.Outcome g.filled.check where
  timeoutZero h := ⟨.timeoutZero, if_pos h, rfl⟩
  timeoutTooLong h :=
    have hzero : g.filled.upload.timeoutSecs ≠ 0 := by omega
    ⟨.timeoutTooLong, (if_neg hzero).trans (if_pos h), rfl⟩
  noFiles hpos hday h :=
    have hshort := (if_neg (Nat.ne_of_gt hpos)).trans (if_neg (Nat.not_lt.mpr hday))
    ⟨.noFiles, hshort.trans (if_pos h), rfl⟩
  usable hpos hday h :=
    have hshort := (if_neg (Nat.ne_of_gt hpos)).trans (if_neg (Nat.not_lt.mpr hday))
    hshort.trans (if_neg (Nat.ne_of_gt h))

/-- **What a text gives is taken, and the rest is built in.** -/
theorem read_given {text : String} {root : Toml.Entries} (hread : Toml.read? text = some root)
    (h : g.In root) (hg : g.InRange) : g.Outcome (read text) := by
  have hcheck : read text = g.filled.check := by
    rw [read, hread, Option.bind_some, ofEntries?_filled h hg]
  rw [hcheck]
  exact Given.Outcome.of_check g

/-! ## Documents -/

/-- The keys that have a value, as the entries of a table. -/
def entriesOf (keys : Keys) : Toml.Entries :=
  keys.filterMap fun k => k.2.map fun v => (k.1, v)

/-- A document that gives these keys and no others. -/
def Given.sections (g : Given) : Toml.Sections :=
  [("server", entriesOf g.server), ("upload", entriesOf g.upload),
    ("logging", entriesOf g.logging)]

theorem mem_entriesOf {keys : Keys} {e : String × Toml} (h : e ∈ entriesOf keys) :
    (e.1, some e.2) ∈ keys := by
  obtain ⟨⟨k, o⟩, hk, heq⟩ := List.mem_filterMap.mp h
  obtain ⟨v, rfl, rfl⟩ := Option.map_eq_some_iff.mp heq
  exact hk

theorem keys_entriesOf_sublist (keys : Keys) :
    ((entriesOf keys).map Prod.fst).Sublist (keys.map Prod.fst) := by
  induction keys with
  | nil => exact List.Sublist.refl _
  | cons k keys ih =>
      obtain ⟨k, o⟩ := k
      cases o with
      | none => exact ih.cons _
      | some v => exact ih.cons_cons _

/-- In a table of distinct keys each has its value, or none. -/
theorem get?_entriesOf {keys : Keys} (honce : (keys.map Prod.fst).Nodup) :
    ∀ k ∈ keys, Toml.get? (entriesOf keys) k.1 = k.2 := by
  induction keys with
  | nil => exact fun k hk => absurd hk List.not_mem_nil
  | cons k keys ih =>
      obtain ⟨k, o⟩ := k
      obtain ⟨hnew, hrest⟩ := List.nodup_cons.mp honce
      intro k' hk'
      have hlater : k' ∈ keys → k ≠ k'.1 := by
        intro hmem heq
        have hk : k'.1 ∈ keys.map Prod.fst := List.mem_map_of_mem hmem
        rw [← heq] at hk
        exact hnew hk
      cases o with
      | none =>
          -- the key is left out, and it comes nowhere else
          rcases List.mem_cons.mp hk' with rfl | hmem
          · exact Toml.get?_eq_none fun h => hnew ((keys_entriesOf_sublist keys).subset h)
          · exact ih hrest k' hmem
      | some v =>
          rcases List.mem_cons.mp hk' with rfl | hmem
          · simp [entriesOf, Toml.get?]
          · have hskip : Toml.get? (entriesOf ((k, some v) :: keys)) k'.1
                = Toml.get? (entriesOf keys) k'.1 := by
              simp [entriesOf, Toml.get?, hlater hmem]
            rw [hskip, ih hrest k' hmem]

theorem shows_entriesOf {keys : Keys} (honce : (keys.map Prod.fst).Nodup) :
    Shows (some (.table .header (entriesOf keys))) keys :=
  get?_entriesOf honce

theorem Given.in_sections (g : Given) : g.In (Toml.rootOf g.sections) where
  server := shows_entriesOf (by simp [Given.server])
  upload := shows_entriesOf (by simp [Given.upload])
  logging := shows_entriesOf (by simp [Given.logging])

theorem scalar_text (o : Option String) : ∀ v ∈ o.map Toml.string, Toml.Scalar v := by
  intro v hv
  obtain ⟨s, -, rfl⟩ := Option.map_eq_some_iff.mp hv
  exact .string s

theorem scalar_flag (o : Option Bool) : ∀ v ∈ o.map Toml.boolean, Toml.Scalar v := by
  intro v hv
  obtain ⟨b, -, rfl⟩ := Option.map_eq_some_iff.mp hv
  exact .boolean b

theorem isWide_natCast {n : Nat} : Toml.IsWide n ↔ n < 2 ^ 63 := by
  have hbound : Toml.integerBound = 2 ^ 63 := rfl
  unfold Toml.IsWide
  rw [hbound]
  omega

theorem scalar_number {o : Option Nat} (h : ∀ n ∈ o, n < 2 ^ 63) :
    ∀ v ∈ o.map number, Toml.Scalar v := by
  intro v hv
  obtain ⟨n, hn, rfl⟩ := Option.map_eq_some_iff.mp hv
  exact .integer (isWide_natCast.mpr (h n hn))

theorem plain_entriesOf {keys : Keys} (hbare : ∀ k ∈ keys.map Prod.fst, Toml.Bare k)
    (honce : (keys.map Prod.fst).Nodup) (hvalues : ∀ k ∈ keys, ∀ v ∈ k.2, Toml.Scalar v) :
    Toml.PlainEntries (entriesOf keys) where
  keys e he := hbare e.1 (List.mem_map_of_mem (mem_entriesOf he))
  once := honce.sublist (keys_entriesOf_sublist keys)
  values e he := hvalues _ (mem_entriesOf he) e.2 rfl

theorem Given.plain_sections (hg : g.InRange) : Toml.Plain g.sections where
  names := by
    have hbare : ∀ name ∈ ["server", "upload", "logging"], Toml.Bare name := by decide
    exact fun s hs => hbare s.1 (List.mem_map_of_mem (f := Prod.fst) hs)
  once := by simp [Given.sections]
  entries := by
    have hport : ∀ n ∈ g.port, n < 2 ^ 63 := fun n hn =>
      Nat.lt_trans (hg.port n hn) (by decide)
    have hserver : Toml.PlainEntries (entriesOf g.server) := by
      refine plain_entriesOf (show ∀ k ∈ ["host", "port"], Toml.Bare k by decide)
        (by simp [Given.server]) ?_
      simp only [Given.server, List.forall_mem_cons]
      exact ⟨scalar_text _, scalar_number hport, by simp⟩
    have hupload : Toml.PlainEntries (entriesOf g.upload) := by
      refine plain_entriesOf
        (show ∀ k ∈ ["timeout_secs", "max_files", "max_body_bytes", "stream_progress",
          "csv_preview_rows", "sse_attach_grace_ms"], Toml.Bare k by decide)
        (by simp [Given.upload]) ?_
      simp only [Given.upload, List.forall_mem_cons]
      exact ⟨scalar_number hg.timeoutSecs, scalar_number hg.maxFiles,
        scalar_number hg.maxBodyBytes, scalar_flag _, scalar_number hg.csvPreviewRows,
        scalar_number hg.sseAttachGraceMs, by simp⟩
    have hlogging : Toml.PlainEntries (entriesOf g.logging) := by
      refine plain_entriesOf (show ∀ k ∈ ["level"], Toml.Bare k by decide)
        (by simp [Given.logging]) ?_
      simp only [Given.logging, List.forall_mem_cons]
      exact ⟨scalar_text _, by simp⟩
    simp only [Given.sections, List.forall_mem_cons]
    exact ⟨hserver, hupload, hlogging, by simp⟩

/-! ## Configurations that were read -/

/-- What a text gives that gives every key. -/
def allOf (c : Config) : Given where
  host := some c.server.host
  port := some c.server.port
  timeoutSecs := some c.upload.timeoutSecs
  maxFiles := some c.upload.maxFiles
  maxBodyBytes := some c.upload.maxBodyBytes
  streamProgress := some c.upload.streamProgress
  csvPreviewRows := some c.upload.csvPreviewRows
  sseAttachGraceMs := some c.upload.sseAttachGraceMs
  level := some c.logging.level

/-- What is written for a configuration gives every key. -/
theorem sections_eq (c : Config) : c.sections = (allOf c).sections := rfl

/-- A section in which all keys have values shows them. -/
theorem shows_of_tells {o : Option Toml} {keys : Keys} (hall : ∀ k ∈ keys, k.2.isSome)
    (h : ∃ making es, o = some (.table making es)
      ∧ ∀ e ∈ entriesOf keys, Toml.get? es e.1 = some e.2) : Shows o keys := by
  obtain ⟨making, es, rfl, hes⟩ := h
  intro k hk
  obtain ⟨v, hv⟩ := Option.isSome_iff_exists.mp (hall k hk)
  have hmem : (k.1, v) ∈ entriesOf keys :=
    List.mem_filterMap.mpr ⟨k, hk, by rw [hv, Option.map_some]⟩
  rw [hes _ hmem, hv]

/-- A root table that tells of a whole configuration gives every key. -/
theorem in_of_tells {c : Config} {root : Toml.Entries} (h : Toml.Tells root c.sections) :
    (allOf c).In root := by
  rw [sections_eq] at h
  exact {
    server := shows_of_tells (by simp [Given.server, allOf])
      (h ("server", entriesOf (allOf c).server) (by simp [Given.sections]))
    upload := shows_of_tells (by simp [Given.upload, allOf])
      (h ("upload", entriesOf (allOf c).upload) (by simp [Given.sections]))
    logging := shows_of_tells (by simp [Given.logging, allOf])
      (h ("logging", entriesOf (allOf c).logging) (by simp [Given.sections])) }

/-- What holds of the built-in value and of all that can be read holds of the value of a key. -/
theorem field_of {α : Type} {read : Toml → Option α} {builtIn a : α} {o : Option Toml}
    {P : α → Prop} (hbuiltIn : P builtIn)
    (hread : ∀ v, o = some v → ∀ a, read v = some a → P a)
    (h : field read builtIn o = some a) : P a := by
  cases o with
  | none =>
      cases h
      exact hbuiltIn
  | some v => exact hread v rfl a h

theorem numberOf?_eq {largest n : Nat} {v : Toml} (h : numberOf? largest v = some n) :
    v = number n ∧ n ≤ largest := by
  unfold numberOf? at h
  split at h
  · split at h
    · rename_i m hrange
      cases h
      simp only [Bool.and_eq_true, decide_eq_true_eq] at hrange
      exact ⟨congrArg Toml.integer (Int.toNat_of_nonneg hrange.1).symm, by omega⟩
    · cases h
  · cases h

theorem lookup_fits {name : String} {i : Nat} {v w : Toml} (hv : Toml.Fits v)
    (h : lookup name i v = some w) : Toml.Fits w := by
  unfold lookup at h
  split at h
  · exact hv.entries.get? h
  · exact hv.items w (List.mem_of_getElem? h)
  · obtain ⟨es, hes, rfl⟩ := Option.map_eq_some_iff.mp h
    exact .table (hv.elements es (List.mem_of_getElem? hes))
  · cases h

/-- A number is no larger than the text could say. -/
theorem number_lt {largest builtIn n i : Nat} {name : String} {v : Toml} (hv : Toml.Fits v)
    (hbuiltIn : builtIn < 2 ^ 63)
    (h : field (numberOf? largest) builtIn (lookup name i v) = some n) : n < 2 ^ 63 := by
  refine field_of (P := fun n => n < 2 ^ 63) hbuiltIn (fun w hw m hm => ?_) h
  have hfit := lookup_fits hv hw
  rw [(numberOf?_eq hm).1] at hfit
  exact isWide_natCast.mp hfit.wide

theorem readServer_port {v : Toml} {s : ServerConfig} (h : readServer v = some s) :
    s.port < 2 ^ 16 := by
  unfold readServer at h
  split at h
  · cases h
  · obtain ⟨host, -, h⟩ := Option.bind_eq_some_iff.mp h
    obtain ⟨port, hport, h⟩ := Option.bind_eq_some_iff.mp h
    cases h
    exact field_of (P := fun n => n < 2 ^ 16) (by decide)
      (fun w _ n hn => Nat.lt_succ_of_le (numberOf?_eq hn).2) hport

/-- The numbers of a section on uploads that was read. -/
theorem readUpload_numbers {v : Toml} {u : UploadConfig} (hv : Toml.Fits v)
    (h : readUpload v = some u) :
    u.timeoutSecs < 2 ^ 63 ∧ u.maxFiles < 2 ^ 63 ∧ u.maxBodyBytes < 2 ^ 63
      ∧ u.csvPreviewRows < 2 ^ 63 ∧ u.sseAttachGraceMs < 2 ^ 63 := by
  unfold readUpload at h
  split at h
  · cases h
  · obtain ⟨timeout, htimeout, h⟩ := Option.bind_eq_some_iff.mp h
    obtain ⟨files, hfiles, h⟩ := Option.bind_eq_some_iff.mp h
    obtain ⟨body, hbody, h⟩ := Option.bind_eq_some_iff.mp h
    obtain ⟨progress, -, h⟩ := Option.bind_eq_some_iff.mp h
    obtain ⟨rows, hrows, h⟩ := Option.bind_eq_some_iff.mp h
    obtain ⟨grace, hgrace, h⟩ := Option.bind_eq_some_iff.mp h
    cases h
    exact ⟨number_lt hv (by decide) htimeout, number_lt hv (by decide) hfiles,
      number_lt hv (by decide) hbody, number_lt hv (by decide) hrows,
      number_lt hv (by decide) hgrace⟩

/-- A configuration that was read has numbers that can be given. -/
theorem inRange_allOf {root : Toml.Entries} {c : Config} (hroot : Toml.FitsAll root)
    (h : ofEntries? root = some c) : (allOf c).InRange := by
  obtain ⟨server, hserver, h⟩ := Option.bind_eq_some_iff.mp h
  obtain ⟨upload, hupload, h⟩ := Option.bind_eq_some_iff.mp h
  obtain ⟨logging, -, h⟩ := Option.bind_eq_some_iff.mp h
  cases h
  have hport : server.port < 2 ^ 16 :=
    field_of (P := fun s : ServerConfig => s.port < 2 ^ 16) (by decide)
      (fun v _ s hs => readServer_port hs) hserver
  obtain ⟨htimeout, hfiles, hbody, hrows, hgrace⟩ :=
    field_of (P := fun u : UploadConfig => u.timeoutSecs < 2 ^ 63 ∧ u.maxFiles < 2 ^ 63
        ∧ u.maxBodyBytes < 2 ^ 63 ∧ u.csvPreviewRows < 2 ^ 63 ∧ u.sseAttachGraceMs < 2 ^ 63)
      (by decide) (fun v hv u hu => readUpload_numbers (hroot.get? hv) hu) hupload
  constructor
  all_goals
    intro n hn
    cases hn
    assumption

/-- The check changes nothing. -/
theorem eq_of_check {c c' : Config} (h : c.check = .ok c') : c' = c := by
  unfold check at h
  split at h
  · cases h
  split at h
  · cases h
  split at h
  · cases h
  · cases h
    rfl

/-- **A configuration that was read is read again as it was written.** -/
theorem read_rewritten {write : Toml.Serializer} (hwrite : write.Faithful) {text : String}
    {c : Config} (h : read text = .ok c) :
    ∃ written, c.write? write = some written ∧ read written = .ok c := by
  unfold read at h
  split at h
  · rename_i c' hbind
    obtain ⟨root, hroot, hentries⟩ := Option.bind_eq_some_iff.mp hbind
    obtain rfl := eq_of_check h
    have hrange := inRange_allOf (Toml.read?_fits hroot) hentries
    obtain ⟨written, root', hwritten, hread, htells⟩ :=
      hwrite _ (Given.plain_sections hrange)
    refine ⟨written, hwritten, ?_⟩
    rw [read, hread, Option.bind_some, ofEntries?_filled (in_of_tells htells) hrange]
    -- nothing was filled up, so it is the same check
    exact h
  · cases h

/-- **The keys that a text gives are taken, and the others are filled up**, whichever they are and
whatever else is in the text, unless a check refuses the result. So it is for every document with
these keys, and there is one for any values in range. A configuration that was read is read again
from what a serializer writes for it, whichever serializer that is, if only what it writes is read
back with the values it was given. -/
theorem config_filled :
    (∀ text root (g : Given), Toml.read? text = some root → g.In root → g.InRange →
        g.Outcome (read text))
      ∧ (∀ ss (g : Given), Toml.Plain ss → g.In (Toml.rootOf ss) → g.InRange →
        g.Outcome (read (Toml.document ss)))
      ∧ (∀ g : Given, g.InRange → Toml.Plain g.sections ∧ g.In (Toml.rootOf g.sections))
      ∧ ∀ write : Toml.Serializer, write.Faithful → ∀ text c, read text = .ok c →
        ∃ written, c.write? write = some written ∧ read written = .ok c := by
  refine ⟨fun text root g hread h hg => read_given hread h hg, fun ss g hss h hg => ?_,
    fun g hg => ⟨Given.plain_sections hg, g.in_sections⟩,
    fun write hwrite text c h => read_rewritten hwrite h⟩
  exact read_given (Toml.read?_document hss) h hg

/-- A text with one key, read and written and read again. The serializer is one that writes plain
values as they stand, each key on a line of its own under the header of its section. -/
theorem config_filled_rewritten :
    read "[upload]\nmax_files = 3\n" = .ok { upload := { maxFiles := 3 } }
      ∧ ∃ written, Config.write? (some ∘ Toml.document) { upload := { maxFiles := 3 } } = some written
        ∧ read written = .ok { upload := { maxFiles := 3 } } := by
  have hread : read "[upload]\nmax_files = 3\n" = .ok { upload := { maxFiles := 3 } } := by
    have hvalue : (read "[upload]\nmax_files = 3\n").toOption
        = some { upload := { maxFiles := 3 } } := by decide +kernel
    cases hr : read "[upload]\nmax_files = 3\n" with
    | ok c =>
        rw [hr] at hvalue
        exact congrArg Except.ok (Option.some.inj hvalue)
    | error e =>
        rw [hr] at hvalue
        cases hvalue
  exact ⟨hread, config_filled.2.2.2 _ Toml.document_faithful _ _ hread⟩

example : (read "upload.max_files = 3\nserver.colour = true\n").toOption
    = some { upload := { maxFiles := 3 } } := by
  decide +kernel

end Intake.Config
