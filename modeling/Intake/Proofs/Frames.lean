import Intake.EventStream
import Intake.Text.Lines
import Intake.Proofs.Instants
import Intake.Proofs.Literals

/-!
# Streams that are read as they were written

A notification goes over the wire as one JSON object, in which every control character is
escaped. So its text has no line end, it is one line of data, and the blank line behind it is
the first there is: cutting a stream at its blank lines gives the notifications back one by one,
whatever names, ids and reasons they carry, and wherever heartbeats stand between them.
-/

namespace Intake

namespace Timestamp

/-- The characters of a timestamp need no escape. -/
theorem writeChars_plain {t : Timestamp} (h : t.OnWire) :
    t.writeChars.flatMap Json.escapeChar = t.writeChars := by
  have hmarks : (['-', 'T', ':', '.', 'Z'] ++ Text.numerals).all
      (fun c => Json.escapeChar c == [c]) = true := by decide
  have hsub : t.writeChars ⊆ ['-', 'T', ':', '.', 'Z'] ++ Text.numerals := by
    have hdigits : ∀ w n, Text.decimalPadded w n ⊆ ['-', 'T', ':', '.', 'Z'] ++ Text.numerals :=
      fun w n => List.Subset.trans (Text.decimalPadded_sub w n) (List.subset_append_right _ _)
    have hfraction : writeFraction (t.nanos % 1000000000)
        ⊆ ['-', 'T', ':', '.', 'Z'] ++ Text.numerals := by
      unfold writeFraction
      split
      · exact List.nil_subset _
      · split
        · exact List.cons_subset.mpr ⟨by decide, hdigits _ _⟩
        · split
          · exact List.cons_subset.mpr ⟨by decide, hdigits _ _⟩
          · exact List.cons_subset.mpr ⟨by decide, hdigits _ _⟩
    unfold writeChars
    rw [writeYear_eq h.year_nonneg h.year_le]
    simp only [List.append_subset, hdigits, hfraction, true_and, and_true]
    decide
  exact Json.flatMap_plain fun c hc => eq_of_beq (List.all_eq_true.mp hmarks c (hsub hc))

end Timestamp

namespace Notification

/-! ## One notification -/

/-- The members of a notification, with what is read of them. -/
def members (n : Notification) : List Json.Member :=
  [⟨"guid", Json.writeString n.event.guid, .string (some n.event.guid)⟩,
    ⟨"uuid", Json.writeString n.event.uuid, .string (some n.event.uuid)⟩,
    ⟨"event", Json.writeString n.event.state.label, .string (some n.event.state.label)⟩,
    ⟨"data", writeOptional n.event.fileName,
      (n.event.fileName.map fun s => Json.string (some s)).getD .null⟩]
  ++ (n.event.reason.map fun r =>
    (⟨"reason", Json.writeString r, .string (some r)⟩ : Json.Member)).toList
  ++ [⟨"timestamp", Json.writeString n.timestamp.write, .string (some n.timestamp.write)⟩]

theorem writes_members (n : Notification) : ∀ m ∈ n.members, Json.Writes m.text m.value := by
  have hname : Json.Writes (writeOptional n.event.fileName)
      ((n.event.fileName.map fun s => Json.string (some s)).getD .null) := by
    cases n.event.fileName with
    | none => exact Json.writes_null
    | some s => exact Json.writes_string s
  have hreason : ∀ m ∈ (n.event.reason.map fun r =>
      (⟨"reason", Json.writeString r, .string (some r)⟩ : Json.Member)).toList,
      Json.Writes m.text m.value := by
    intro m hm
    obtain ⟨r, _, rfl⟩ := Option.map_eq_some_iff.mp (Option.mem_toList.mp hm)
    exact Json.writes_string r
  intro m hm
  simp only [members, List.mem_append, List.mem_cons, List.not_mem_nil, or_false] at hm
  rcases hm with ((rfl | rfl | rfl | rfl) | hm) | rfl
  · exact Json.writes_string _
  · exact Json.writes_string _
  · exact Json.writes_string _
  · exact hname
  · exact hreason m hm
  · exact Json.writes_string _

theorem members_ne_nil (n : Notification) : n.members ≠ [] := by
  simp [members]

/-- A notification is written member by member. -/
theorem writeChars_eq {n : Notification} (h : n.timestamp.OnWire) :
    n.writeChars = '\x7b' :: (Json.writeMembers n.members ++ ['\x7d']) := by
  have htime : '"' :: (n.timestamp.writeChars ++ ['"']) = Json.writeString n.timestamp.write := by
    unfold Json.writeString Timestamp.write
    rw [String.toList_ofList, Timestamp.writeChars_plain h]
  have hmembers : n.writeMembers = n.members.map Json.Member.chars := by
    unfold writeMembers members
    rw [htime]
    cases n.event.reason with
    | none => rfl
    | some r => rfl
  unfold writeChars Json.writeMembers
  rw [hmembers]
  rfl

/-- What is read of a notification's members is the notification. -/
theorem ofJson?_members {n : Notification} (h : n.timestamp.OnWire) :
    ofJson? (.object (n.members.map Json.Member.pair)) = some n := by
  have htime : timestampOf? (.string (some n.timestamp.write)) = some n.timestamp :=
    Timestamp.read?_write h
  have hstate : EventState.ofJson? (.string (some n.event.state.label)) = some n.event.state :=
    EventState.ofLabel?_label _
  obtain ⟨⟨guid, uuid, state, fileName, reason⟩, timestamp⟩ := n
  dsimp only at htime hstate
  cases fileName <;> cases reason <;>
    simp [ofJson?, members, Json.Member.pair, Draft.putAll, Draft.put, Draft.finish, textOf?,
      optionalOf?, htime, hstate]

/-- **A notification is read as it was written.** -/
theorem read?_write {n : Notification} (h : n.timestamp.OnWire) : read? n.write = some n := by
  unfold read? write
  rw [writeChars_eq h, Json.read?_object n.members_ne_nil n.writes_members]
  exact ofJson?_members h

/-- It is written in one line. -/
theorem inline_writeChars {n : Notification} (h : n.timestamp.OnWire) :
    Json.Inline n.writeChars := by
  rw [writeChars_eq h]
  exact .cons (by decide) (by decide) ((Json.inline_writeMembers n.writes_members).append
    (.cons (by decide) (by decide) Json.inline_nil))

end Notification

namespace EventStream

/-! ## Records -/

/-- What is written for a text in a data field: one line for each line of the text. -/
def dataLines (text : List Char) : List Char :=
  (Text.splitAt '\n' text).flatMap fun line => "data: ".toList ++ line ++ ['\n']

theorem splitFrom_of_not_mem {sep : Char} {cs : List Char} (h : sep ∉ cs) (piece : List Char)
    (done : List (List Char)) :
    Text.splitFrom sep piece done cs = done.reverse ++ [piece.reverse ++ cs] := by
  induction cs generalizing piece with
  | nil => simp [Text.splitFrom]
  | cons c cs ih =>
      have hc : c ≠ sep := fun hc => h (hc ▸ List.mem_cons_self)
      rw [Text.splitFrom, if_neg hc, ih fun hm => h (List.mem_cons_of_mem _ hm)]
      simp

theorem dataLines_eq {text : List Char} (h : '\n' ∉ text) :
    dataLines text = "data: ".toList ++ text ++ ['\n'] := by
  unfold dataLines Text.splitAt
  rw [splitFrom_of_not_mem h]
  simp

/-- A notification or a heartbeat as a record. -/
def piece : Option Notification → List Char
  | some n => record n
  | none => heartbeat

/-- The text of a stream in which heartbeats stand between the notifications. -/
def text (ps : List (Option Notification)) : List Char :=
  ps.flatMap piece

/-- What stands in front of a blank line. -/
def block : Option Notification → List Char
  | some n => "data: ".toList ++ n.writeChars
  | none => ": heartbeat".toList

theorem piece_eq (p : Option Notification) : piece p = block p ++ ['\n', '\n'] := by
  cases p with
  | none => rfl
  | some n => rfl

theorem text_cons (p : Option Notification) (ps : List (Option Notification)) :
    text (p :: ps) = block p ++ '\n' :: '\n' :: text ps := by
  unfold text
  rw [List.flatMap_cons, piece_eq, List.append_assoc]
  rfl

/-- Heartbeats are comments, and nothing else is one. -/
theorem head?_block (p : Option Notification) : ((block p).head? != some ':') = p.isSome := by
  cases p with
  | none => rfl
  | some n => rfl

/-- A stream without heartbeats. -/
theorem text_map_some (ns : List Notification) : text (ns.map some) = body ns := by
  unfold text body
  rw [List.flatMap_map]
  rfl

/-- A line is one record, together with what was read of it. -/
theorem recordsFrom_line {line : List Char} (h : '\n' ∉ line) (cur : List Char)
    (done : List (List Char)) (rest : List Char) :
    recordsFrom cur done (line ++ '\n' :: '\n' :: rest)
      = recordsFrom [] ((cur.reverse ++ line) :: done) rest := by
  induction line generalizing cur with
  | nil => simp [recordsFrom]
  | cons c line ih =>
      have hc : c ≠ '\n' := fun hc => h (hc ▸ List.mem_cons_self)
      rw [List.cons_append, recordsFrom, ih fun hm => h (List.mem_cons_of_mem _ hm)]
      · simp
      · intro r hr
        exact absurd hr hc

variable {ps : List (Option Notification)}

theorem recordsFrom_text (hps : ∀ n, some n ∈ ps → n.timestamp.OnWire)
    (done : List (List Char)) : recordsFrom [] done (text ps) = done.reverse ++ ps.map block := by
  induction ps generalizing done with
  | nil => simp [text, recordsFrom]
  | cons p ps ih =>
      have inline_field : '\n' ∉ "data: ".toList := by simp
      have inline_mark : '\n' ∉ ": heartbeat".toList := by simp
      have hline : '\n' ∉ block p := by
        cases p with
        | none => exact inline_mark
        | some n =>
            have h := Notification.inline_writeChars (hps n List.mem_cons_self)
            exact fun hm => (List.mem_append.mp hm).elim inline_field h.1
      rw [text_cons, recordsFrom_line hline, ih fun n hn => hps n (List.mem_cons_of_mem _ hn)]
      simp

/-- **The records of a stream are its notifications**: heartbeats are comments. -/
theorem records_text (hps : ∀ n, some n ∈ ps → n.timestamp.OnWire) :
    records (text ps) = (ps.filterMap id).map fun n => block (some n) := by
  unfold records
  rw [recordsFrom_text hps, List.reverse_nil, List.nil_append]
  clear hps
  induction ps with
  | nil => rfl
  | cons p ps ih =>
      cases p with
      | none =>
          rw [List.map_cons, List.filter_cons_of_neg (by simp [head?_block]), ih]
          rfl
      | some n =>
          rw [List.map_cons, List.filter_cons_of_pos (by simp [head?_block]), ih]
          rfl

theorem notificationOf?_block {n : Notification} (h : n.timestamp.OnWire) :
    notificationOf? (block (some n)) = some n :=
  Notification.read?_write h

theorem read?_text (hps : ∀ n, some n ∈ ps → n.timestamp.OnWire) :
    read? (text ps) = some (ps.filterMap id) := by
  unfold read?
  rw [records_text hps]
  have hns : ∀ n ∈ ps.filterMap id, n.timestamp.OnWire := by
    intro n hn
    obtain ⟨p, hp, rfl⟩ := List.mem_filterMap.mp hn
    exact hps n hp
  generalize ps.filterMap id = ns at hns
  induction ns with
  | nil => rfl
  | cons n ns ih =>
      rw [List.map_cons, List.mapM_cons, notificationOf?_block (hns n List.mem_cons_self),
        ih fun m hm => hns m (List.mem_cons_of_mem _ hm)]
      rfl

/-- **How some notifications stand in a stream, and what the stream is read as.** -/
structure Framed (ns : List Notification) : Prop where
  /-- There is a record for each: a field with the JSON as its data, and a blank line. -/
  written : body ns = ns.flatMap fun n => dataLines n.writeChars ++ ['\n']
  /-- The JSON has no line ends, so that is one line. -/
  inline : ∀ n ∈ ns, '\n' ∉ n.writeChars ∧ '\r' ∉ n.writeChars
  line : ∀ n ∈ ns, dataLines n.writeChars = "data: ".toList ++ n.writeChars ++ ['\n']
  /-- It is read as these notifications, in their order, -/
  read : read? (body ns) = some ns
  /-- also where heartbeats stand between them, -/
  spaced : ∀ ps, ps.filterMap id = ns →
    records (text ps) = ns.map (fun n => "data: ".toList ++ n.writeChars)
      ∧ read? (text ps) = some ns
  /-- and as no others. -/
  unique : ∀ ms : List Notification, (∀ n ∈ ms, n.timestamp.OnWire) → body ms = body ns → ms = ns

/-- **A stream loses nothing**, whatever is in its notifications. -/
theorem stream_lossless {ns : List Notification} (hns : ∀ n ∈ ns, n.timestamp.OnWire) :
    Framed ns := by
  have hread : ∀ ms : List Notification, (∀ n ∈ ms, n.timestamp.OnWire) →
      read? (body ms) = some ms := by
    intro ms hms
    rw [← text_map_some, read?_text (by simpa using hms)]
    simp
  have hline : ∀ n ∈ ns,
      dataLines n.writeChars = "data: ".toList ++ n.writeChars ++ ['\n'] :=
    fun n hn => dataLines_eq (Notification.inline_writeChars (hns n hn)).1
  refine ⟨?_, fun n hn => Notification.inline_writeChars (hns n hn), hline, hread ns hns, ?_, ?_⟩
  · unfold body
    rw [List.flatMap_def, List.flatMap_def]
    refine congrArg List.flatten (List.map_congr_left fun n hn => ?_)
    rw [hline n hn, List.append_assoc]
    exact piece_eq (some n)
  · rintro ps rfl
    have hps : ∀ n, some n ∈ ps → n.timestamp.OnWire :=
      fun n hn => hns n (List.mem_filterMap.mpr ⟨some n, hn, rfl⟩)
    exact ⟨records_text hps, read?_text hps⟩
  · intro ms hms heq
    have h := (hread ms hms).symm.trans ((congrArg read? heq).trans (hread ns hns))
    exact Option.some.inj h

/-- Two notifications. The first is of a leap second, and its session's id has a line end in it;
the second has no time of the day, an empty reason, and a name that looks like a record. -/
theorem stream_lossless_lookalike :
    let ns : List Notification := [
      { event := ⟨"\r\n\"\\", "", .completed, none, none⟩
        timestamp := ⟨2016, 12, 31, 86399, 1500000000⟩ },
      { event := ⟨"s", "7", .fileProcessingError, some "\n\ndata: \x7b\x7d\n\n: \u0000", some ""⟩
        timestamp := ⟨0, 2, 29, 0, 0⟩ }]
    (∀ n ∈ ns, n.timestamp.OnWire) ∧ Framed ns := by
  intro ns
  have hleap : Timestamp.OnWire ⟨2016, 12, 31, 86399, 1500000000⟩ := by
    refine ⟨⟨?_, ?_, ?_, ?_, ?_, ?_, ?_⟩, ?_, ?_⟩ <;> decide
  have hday : Timestamp.OnWire ⟨0, 2, 29, 0, 0⟩ := by
    refine ⟨⟨?_, ?_, ?_, ?_, ?_, ?_, ?_⟩, ?_, ?_⟩ <;> decide
  have hns : ∀ n ∈ ns, n.timestamp.OnWire := by
    intro n hn
    simp only [ns, List.mem_cons, List.not_mem_nil, or_false] at hn
    rcases hn with rfl | rfl
    · exact hleap
    · exact hday
  exact ⟨hns, stream_lossless hns⟩

end EventStream
end Intake
