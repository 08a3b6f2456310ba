import Intake.Proofs.Scalars

/-!
# TOML documents that are read as they were written

A document is a row of sections with an empty line between them. `read?_document` says that it is
read back as the tables it was written from. A section is read entry by entry: its header opens a
table at the end of the root, and each line puts its entry at the end of that table
(`lines_section`). Names and keys must be ones that need no quotes, and none may come twice.
-/

namespace Intake.Toml

/-- The root table of a document. -/
def rootOf (ss : Sections) : Entries :=
  ss.map fun s => (s.1, .table .header s.2)

/-- Holds of the keys that need no quotes. -/
structure Bare (k : String) : Prop where
  filled : k.toList ≠ []
  bare : ∀ c ∈ k.toList, isBare c = true

theorem bare_iff (k : String) :
    (!k.toList.isEmpty && k.toList.all isBare) = true ↔ Bare k := by
  rw [Bool.and_eq_true, List.all_eq_true, Bool.not_eq_true', List.isEmpty_eq_false_iff]
  exact ⟨fun h => ⟨h.1, h.2⟩, fun h => ⟨h.filled, h.bare⟩⟩

instance (k : String) : Decidable (Bare k) :=
  decidable_of_iff _ (bare_iff k)

/-- Holds of entries that can be written line by line. -/
structure PlainEntries (es : Entries) : Prop where
  keys : ∀ e ∈ es, Bare e.1
  once : (es.map Prod.fst).Nodup
  values : ∀ e ∈ es, Scalar e.2

/-- Holds of sections that can be written. -/
structure Plain (ss : Sections) : Prop where
  names : ∀ s ∈ ss, Bare s.1
  once : (ss.map Prod.fst).Nodup
  entries : ∀ s ∈ ss, PlainEntries s.2

/-- Holds of a root table with all sections, each with the values of its entries. -/
def Tells (root : Entries) (ss : Sections) : Prop :=
  ∀ s ∈ ss, ∃ making es, get? root s.1 = some (.table making es) ∧ ∀ e ∈ s.2, get? es e.1 = some e.2

/-- What is relied on of a serializer: it writes sections that can be written, and what it writes
is read back with their values. In which order they stand, how they are spelled and what else is
in the text is left to it. -/
def Serializer.Faithful (write : Serializer) : Prop :=
  ∀ ss, Plain ss → ∃ text root, write ss = some text ∧ read? text = some root ∧ Tells root ss

theorem Plain.tail {s : String × Entries} {ss : Sections} (h : Plain (s :: ss)) : Plain ss where
  names t ht := h.names t (List.mem_cons_of_mem _ ht)
  once := (List.nodup_cons.mp h.once).2
  entries t ht := h.entries t (List.mem_cons_of_mem _ ht)

theorem document_one (s : String × Entries) :
    (document [s]).toList = writeSection s.1 s.2 ++ [] := by
  rw [document, String.toList_ofList, List.append_nil]
  exact List.intercalate_singleton

theorem document_cons (s s' : String × Entries) (ss : Sections) :
    (document (s :: s' :: ss)).toList
      = writeSection s.1 s.2 ++ '\n' :: (document (s' :: ss)).toList := by
  rw [document, document, String.toList_ofList, String.toList_ofList, List.map_cons,
    List.map_cons, List.intercalate_cons_cons, List.append_assoc]
  rfl

/-- A document starts with a bracket, if it is not empty. -/
theorem document_head {ss : Sections} {c : Char} {r : List Char}
    (h : (document ss).toList = c :: r) : c = '[' := by
  cases ss with
  | nil =>
      rw [document, String.toList_ofList] at h
      cases h
  | cons s ss =>
      cases ss with
      | nil =>
          rw [document_one] at h
          exact (List.cons.inj h).1.symm
      | cons s' ss =>
          rw [document_cons] at h
          exact (List.cons.inj h).1.symm

/-! ## Tables -/

theorem get?_eq_none {es : Entries} {k : String} (h : k ∉ es.map Prod.fst) :
    get? es k = none := by
  have hfind : es.find? (fun e => e.1 == k) = none := by
    rw [List.find?_eq_none]
    intro e he heq
    exact h (List.mem_map.mpr ⟨e, he, eq_of_beq heq⟩)
  rw [get?, hfind]
  rfl

/-- A key that is new is put at the end. -/
theorem set_new {es : Entries} {k : String} (v : Toml) (h : k ∉ es.map Prod.fst) :
    set es k v = es ++ [(k, v)] := by
  refine if_neg fun hany => ?_
  obtain ⟨e, he, heq⟩ := List.any_eq_true.mp hany
  exact h (List.mem_map.mpr ⟨e, he, eq_of_beq heq⟩)

/-- A key that comes once is new where it comes. -/
theorem new_of_nodup {es rest : Entries} {k : String} {v : Toml}
    (h : ((es ++ (k, v) :: rest).map Prod.fst).Nodup) : k ∉ es.map Prod.fst := by
  rw [List.map_append, List.nodup_append] at h
  exact fun hmem => h.2.2 k hmem k List.mem_cons_self rfl

theorem get?_last {es : Entries} {k : String} (v : Toml) (h : k ∉ es.map Prod.fst) :
    get? (es ++ [(k, v)]) k = some v := by
  have hnone := get?_eq_none h
  rw [get?, Option.map_eq_none_iff] at hnone
  rw [get?, List.find?_append, hnone]
  simp

theorem set_last {es : Entries} {k : String} (v w : Toml) (h : k ∉ es.map Prod.fst) :
    set (es ++ [(k, v)]) k w = es ++ [(k, w)] := by
  have hsame : es.map (fun e => if e.1 == k then (k, w) else e) = es := by
    have hne : ∀ e ∈ es, (if e.1 == k then (k, w) else e) = e := fun e he =>
      if_neg fun heq => h (List.mem_map.mpr ⟨e, he, eq_of_beq heq⟩)
    exact (List.map_congr_left hne).trans (List.map_id' es)
  rw [set, if_pos (by simp), List.map_append, hsame]
  simp

/-- The header of a new section opens an empty table at the end. -/
theorem openTable_new {root : Entries} {name : String} (h : name ∉ root.map Prod.fst) :
    openTable root [] name = some (root ++ [(name, .table .header [])]) := by
  rw [openTable, withinHeader, get?_eq_none h]
  exact congrArg some (set_new _ h)

/-- A new entry is put at the end of the last section. -/
theorem putCurrent_new {root done : Entries} {name k : String} (v : Toml)
    (hname : name ∉ root.map Prod.fst) (hk : k ∉ done.map Prod.fst) :
    putCurrent (root ++ [(name, .table .header done)]) [name] [] k v
      = some (root ++ [(name, .table .header (done ++ [(k, v)]))]) := by
  unfold putCurrent
  rw [withinHeader, get?_last _ hname]
  show (withinHeader done [] fun es => putDotted es [] k v).map _ = _
  rw [withinHeader, putDotted, get?_eq_none hk, set_new v hk]
  exact congrArg some (set_last _ _ hname)

/-! ## Keys -/

theorem isBare_ne {c d : Char} (h : isBare c = true) (hd : isBare d = false) : c ≠ d := by
  rintro rfl
  rw [h] at hd
  cases hd

/-- A bare key has a first character. -/
theorem Bare.head {k : String} (h : Bare k) :
    ∃ c r, k.toList = c :: r ∧ isBare c = true := by
  cases hk : k.toList with
  | nil => exact absurd hk h.filled
  | cons c r => exact ⟨c, r, rfl, h.bare c (hk ▸ List.mem_cons_self)⟩

theorem isSpace_of_isBare {c : Char} (h : isBare c = true) : isSpace c = false := by
  simp [isSpace, isBare_ne h (d := ' ') (by decide), isBare_ne h (d := '\t') (by decide)]

theorem Bare.skipSpace {k : String} (h : Bare k) (rest : List Char) :
    skipSpace (k.toList ++ rest) = k.toList ++ rest := by
  obtain ⟨c, r, hk, hc⟩ := h.head
  rw [hk, List.cons_append, Toml.skipSpace, List.dropWhile_cons_of_neg (by simp [isSpace_of_isBare hc])]

theorem Bare.keyPart {k : String} (h : Bare k) {d : Char} (hd : isBare d = false)
    (rest : List Char) : keyPart (k.toList ++ d :: rest) = some (k, d :: rest) := by
  have htake : (k.toList ++ d :: rest).takeWhile isBare = k.toList := by
    rw [List.takeWhile_append_of_pos h.bare, List.takeWhile_cons_of_neg (by simp [hd]),
      List.append_nil]
  have hdrop : (k.toList ++ d :: rest).dropWhile isBare = d :: rest := by
    rw [List.dropWhile_append_of_pos h.bare, List.dropWhile_cons_of_neg (by simp [hd])]
  obtain ⟨c, r, hk, hc⟩ := h.head
  unfold Toml.keyPart
  split
  · rename_i heq
    rw [hk, List.cons_append] at heq
    exact absurd (List.cons.inj heq).1 (isBare_ne hc (by decide))
  · rename_i heq
    rw [hk, List.cons_append] at heq
    exact absurd (List.cons.inj heq).1 (isBare_ne hc (by decide))
  · dsimp only
    rw [htake, hdrop, if_neg (by simpa using h.filled), String.ofList_toList]

/-- A bare key is read up to what stands behind it. -/
theorem Bare.key {k : String} (h : Bare k) (fuel : Nat) {c d : Char} {r rest : List Char}
    (hd : isBare d = false) (hskip : Toml.skipSpace (d :: rest) = c :: r) (hc : c ≠ '.') :
    key (fuel + 1) (k.toList ++ d :: rest) = some (([], k), c :: r) := by
  rw [Toml.key, h.skipSpace, h.keyPart hd]
  dsimp only [Option.bind_eq_bind, Option.bind_some]
  rw [hskip]
  split
  · rename_i heq
    exact absurd (List.cons.inj heq).1 hc
  · rfl

/-! ## Lines -/

/-- The line of an entry is read as its key and its value. -/
theorem assignment_writeEntry {k : String} {v : Toml} (hk : Bare k) (hv : Scalar v)
    (rest : List Char) :
    assignment (writeEntry (k, v) ++ rest) = some (([], k, v), '\n' :: rest) := by
  have htext : writeEntry (k, v) ++ rest
      = k.toList ++ ' ' :: '=' :: ' ' :: (writeScalar v ++ '\n' :: rest) := by
    simp [writeEntry]
  have hkey : key ((writeEntry (k, v) ++ rest).length + 1) (writeEntry (k, v) ++ rest)
      = some (([], k), '=' :: ' ' :: (writeScalar v ++ '\n' :: rest)) := by
    rw [htext]
    exact hk.key _ (by decide) rfl (by decide)
  have hblank : skipSpace (' ' :: (writeScalar v ++ '\n' :: rest))
      = writeScalar v ++ '\n' :: rest := skipSpace_writeScalar hv _
  rw [assignment, hkey]
  show (value _ _ (skipSpace (' ' :: (writeScalar v ++ '\n' :: rest)))).bind _ = _
  rw [hblank, value_writeScalar hv]
  rfl

/-- An empty line changes nothing. -/
theorem lines_empty (fuel : Nat) (root : Entries) (header : List String) (rest : List Char) :
    lines (fuel + 1) root header ('\n' :: rest) = lines fuel root header rest := by
  rfl

/-- What starts like a bare key is read as an assignment. -/
theorem lines_bare {c : Char} (hc : isBare c = true) (fuel : Nat) (root : Entries)
    (header : List String) (r : List Char) :
    lines (fuel + 1) root header (c :: r) = (assignment (c :: r)).bind fun x =>
      (putCurrent root header x.1.1 x.1.2.1 x.1.2.2).bind fun root' =>
        (lineEnd x.2).bind fun rest => lines fuel root' header rest := by
  have hskip : skipSpace (c :: r) = c :: r :=
    List.dropWhile_cons_of_neg (by simp [isSpace_of_isBare hc])
  have hother : ∀ {d : Char} {s : List Char}, isBare d = false → c :: r ≠ d :: s :=
    fun hd heq => isBare_ne hc hd (List.cons.inj heq).1
  rw [lines, hskip]
  split
  · rename_i heq
    cases heq
  · rename_i heq
    exact absurd heq (hother (by decide))
  · rename_i heq
    exact absurd heq (hother (by decide))
  · rename_i heq
    exact absurd heq (hother (by decide))
  · rename_i heq
    exact absurd heq (hother (by decide))
  · rename_i heq
    exact absurd heq (hother (by decide))
  · rfl

/-- The line of an entry puts it into the table of the header above. -/
theorem lines_entry {k : String} {v : Toml} (hk : Bare k) (hv : Scalar v) (fuel : Nat)
    (root : Entries) (header : List String) (rest : List Char) :
    lines (fuel + 1) root header (writeEntry (k, v) ++ rest)
      = (putCurrent root header [] k v).bind fun root' => lines fuel root' header rest := by
  have hread := assignment_writeEntry hk hv rest
  obtain ⟨c, r, hc, hbare⟩ := hk.head
  have hfirst : ∃ s, writeEntry (k, v) ++ rest = c :: s := by
    rw [writeEntry, hc]
    exact ⟨_, rfl⟩
  obtain ⟨s, hs⟩ := hfirst
  rw [hs] at hread ⊢
  rw [lines_bare hbare, hread]
  rfl

/-- The line of a header opens its table. -/
theorem lines_header {name : String} (hname : Bare name) (fuel : Nat) (root : Entries)
    (header : List String) (rest : List Char) :
    lines (fuel + 1) root header ('[' :: (name.toList ++ ']' :: '\n' :: rest))
      = (openTable root [] name).bind fun root' => lines fuel root' [name] rest := by
  obtain ⟨c, r, hc, hbare⟩ := hname.head
  have hkey : key ((name.toList ++ ']' :: '\n' :: rest).length + 1)
      (name.toList ++ ']' :: '\n' :: rest) = some (([], name), ']' :: '\n' :: rest) :=
    hname.key _ (by decide) rfl (by decide)
  have hskip : skipSpace ('[' :: (name.toList ++ ']' :: '\n' :: rest))
      = '[' :: (name.toList ++ ']' :: '\n' :: rest) := rfl
  rw [lines, hskip]
  rw [hc, List.cons_append] at hkey ⊢
  split
  · rename_i heq
    cases heq
  · rename_i heq
    exact absurd (List.cons.inj heq).1 (by decide)
  · rename_i heq
    exact absurd (List.cons.inj heq).1 (by decide)
  · rename_i heq
    exact absurd (List.cons.inj heq).1 (by decide)
  · -- a second bracket is no bare character
    rename_i heq
    exact absurd (List.cons.inj (List.cons.inj heq).2).1 (isBare_ne hbare (by decide))
  · rename_i heq
    cases heq
    rw [hkey]
    rfl
  · rename_i hno
    exact absurd rfl (hno _)

/-! ## Documents -/

/-- Line by line the entries come behind those that are there. -/
theorem lines_entries {root done es : Entries} {name : String}
    (hname : name ∉ root.map Prod.fst) (hkeys : ∀ e ∈ es, Bare e.1)
    (hvalues : ∀ e ∈ es, Scalar e.2) (honce : ((done ++ es).map Prod.fst).Nodup)
    (rest : List Char) {fuel : Nat} (hfuel : (es.flatMap writeEntry ++ rest).length < fuel) :
    ∃ left, rest.length < left
      ∧ lines fuel (root ++ [(name, .table .header done)]) [name]
          (es.flatMap writeEntry ++ rest)
        = lines left (root ++ [(name, .table .header (done ++ es))]) [name] rest := by
  induction es generalizing done fuel with
  | nil => exact ⟨fuel, hfuel, by simp⟩
  | cons e es ih =>
      obtain ⟨k, v⟩ := e
      obtain ⟨fuel, rfl⟩ := Nat.exists_eq_add_one_of_ne_zero (Nat.ne_zero_of_lt hfuel)
      have hput := putCurrent_new v hname (new_of_nodup honce)
      -- a line takes one of the fuel, and at least one character
      have hless : (es.flatMap writeEntry ++ rest).length < fuel := by
        have hentry : 0 < (writeEntry (k, v)).length := by
          rw [writeEntry, List.length_append]
          exact Nat.succ_pos _
        rw [List.flatMap_cons, List.append_assoc, List.length_append] at hfuel
        omega
      have hlast : done ++ (k, v) :: es = done ++ [(k, v)] ++ es := List.append_cons _ _ _
      rw [hlast] at honce ⊢
      obtain ⟨left, hleft, hlines⟩ := ih (fun e he => hkeys e (List.mem_cons_of_mem _ he))
        (fun e he => hvalues e (List.mem_cons_of_mem _ he)) honce hless
      refine ⟨left, hleft, ?_⟩
      rw [List.flatMap_cons, List.append_assoc, lines_entry (hkeys _ List.mem_cons_self)
        (hvalues _ List.mem_cons_self), hput, Option.bind_some, hlines]

/-- A section is read as a table at the end of the root. -/
theorem lines_section {root es : Entries} {name : String} (header : List String)
    (hname : name ∉ root.map Prod.fst) (hbare : Bare name) (hes : PlainEntries es)
    (rest : List Char) {fuel : Nat} (hfuel : (writeSection name es ++ rest).length < fuel) :
    ∃ left, rest.length < left
      ∧ lines fuel root header (writeSection name es ++ rest)
        = lines left (root ++ [(name, .table .header es)]) [name] rest := by
  obtain ⟨fuel, rfl⟩ := Nat.exists_eq_add_one_of_ne_zero (Nat.ne_zero_of_lt hfuel)
  have htext : writeSection name es ++ rest
      = '[' :: (name.toList ++ ']' :: '\n' :: (es.flatMap writeEntry ++ rest)) := by
    simp [writeSection]
  have honce : (([] ++ es).map Prod.fst).Nodup := hes.once
  have hless : (es.flatMap writeEntry ++ rest).length < fuel := by
    rw [htext] at hfuel
    simp only [List.length_cons, List.length_append] at hfuel ⊢
    omega
  obtain ⟨left, hleft, hlines⟩ := lines_entries hname hes.keys hes.values honce rest hless
  refine ⟨left, hleft, ?_⟩
  rw [htext, lines_header hbare, openTable_new hname, Option.bind_some, hlines]
  rfl

theorem lines_document {root : Entries} {ss : Sections} (header : List String) (hss : Plain ss)
    (hnew : ((root ++ rootOf ss).map Prod.fst).Nodup) {fuel : Nat}
    (hfuel : (document ss).toList.length < fuel) :
    lines fuel root header (document ss).toList = some (root ++ rootOf ss) := by
  induction ss generalizing root header fuel with
  | nil =>
      obtain ⟨fuel, rfl⟩ := Nat.exists_eq_add_one_of_ne_zero (Nat.ne_zero_of_lt hfuel)
      show some root = some (root ++ [])
      rw [List.append_nil]
  | cons s ss ih =>
      have hsection := @lines_section root s.2 s.1 header (new_of_nodup hnew)
        (hss.names s List.mem_cons_self) (hss.entries s List.mem_cons_self)
      have hlast : root ++ rootOf (s :: ss) = root ++ [(s.1, .table .header s.2)] ++ rootOf ss :=
        List.append_cons _ _ _
      rw [hlast] at hnew ⊢
      cases ss with
      | nil =>
          rw [document_one] at hfuel ⊢
          obtain ⟨left, hleft, hlines⟩ := hsection [] hfuel
          obtain ⟨left, rfl⟩ := Nat.exists_eq_add_one_of_ne_zero (Nat.ne_zero_of_lt hleft)
          rw [hlines, rootOf, List.map_nil, List.append_nil]
          rfl
      | cons s' ss =>
          -- the empty line between them is a step of its own
          rw [document_cons] at hfuel ⊢
          obtain ⟨left, hleft, hlines⟩ := hsection _ hfuel
          obtain ⟨left, rfl⟩ := Nat.exists_eq_add_one_of_ne_zero (Nat.ne_zero_of_lt hleft)
          rw [hlines, lines_empty]
          exact ih [s.1] hss.tail hnew (Nat.lt_of_succ_lt_succ hleft)

/-- **A document is read as the tables it was written from.** -/
theorem read?_document {ss : Sections} (hss : Plain ss) :
    read? (document ss) = some (rootOf ss) := by
  have hnew : (([] ++ rootOf ss).map Prod.fst).Nodup := by
    rw [List.nil_append, rootOf, List.map_map]
    exact hss.once
  have hread := lines_document [] hss hnew (Nat.lt_succ_self _)
  unfold read?
  dsimp only
  split
  · rename_i heq
    exact absurd (document_head heq) (by decide)
  · exact hread

/-- In a table of distinct keys each entry is found. -/
theorem get?_of_mem {es : Entries} (honce : (es.map Prod.fst).Nodup) {e : String × Toml}
    (he : e ∈ es) : get? es e.1 = some e.2 := by
  induction es with
  | nil => exact absurd he List.not_mem_nil
  | cons e' es ih =>
      obtain ⟨hnew, hrest⟩ := List.nodup_cons.mp honce
      rcases List.mem_cons.mp he with rfl | hmem
      · simp [get?]
      · have hne : e'.1 ≠ e.1 := fun heq => hnew (heq ▸ List.mem_map_of_mem hmem)
        have hskip : get? (e' :: es) e.1 = get? es e.1 := by simp [get?, hne]
        rw [hskip, ih hrest hmem]

/-- Documents are one way to write sections. -/
theorem document_faithful : Serializer.Faithful (some ∘ document) := by
  intro ss hss
  refine ⟨document ss, rootOf ss, rfl, read?_document hss, fun s hs => ?_⟩
  have honce : ((rootOf ss).map Prod.fst).Nodup := by
    rw [rootOf, List.map_map]
    exact hss.once
  exact ⟨.header, s.2, get?_of_mem honce (e := (s.1, .table .header s.2))
    (List.mem_map_of_mem (f := fun s => (s.1, Toml.table .header s.2)) hs),
    fun e he => get?_of_mem (hss.entries s hs).once he⟩

end Intake.Toml
