import Intake.Proofs.Scalars

/-!
# The numbers of a TOML text

What is read from a text has no whole number outside 64 bits with sign, however deep it stands:
`read?_fits`. A number gets into a table as the value of a line, so the invariant is `Fits` of
values, and `FitsAll` of the entries of a table. Each way to change a table keeps it, since all of
them put tables around values that fit.
-/

namespace Intake.Toml

/-- Holds of a value all of whose numbers are of 64 bits. -/
inductive Fits : Toml → Prop where
  | string (s : String) : Fits (.string s)
  | integer {n : Int} (wide : IsWide n) : Fits (.integer n)
  | float : Fits .float
  | boolean (b : Bool) : Fits (.boolean b)
  | datetime : Fits .datetime
  | array {items : List Toml} (items_fit : ∀ v ∈ items, Fits v) : Fits (.array items)
  | table {making : Making} {entries : Entries} (entries_fit : ∀ e ∈ entries, Fits e.2) :
      Fits (.table making entries)
  | tables {elements : List Entries} (elements_fit : ∀ es ∈ elements, ∀ e ∈ es, Fits e.2) :
      Fits (.tables elements)

/-- Holds of entries whose values fit. -/
def FitsAll (es : Entries) : Prop :=
  ∀ e ∈ es, Fits e.2

theorem Fits.wide {n : Int} (h : Fits (.integer n)) : IsWide n := by
  cases h with
  | integer wide => exact wide

theorem Fits.items {items : List Toml} (h : Fits (.array items)) : ∀ v ∈ items, Fits v := by
  cases h with
  | array items_fit => exact items_fit

theorem Fits.entries {making : Making} {es : Entries} (h : Fits (.table making es)) :
    FitsAll es := by
  cases h with
  | table entries_fit => exact entries_fit

theorem Fits.elements {elements : List Entries} (h : Fits (.tables elements)) :
    ∀ es ∈ elements, FitsAll es := by
  cases h with
  | tables elements_fit => exact elements_fit

/-! ## Tables -/

theorem fitsAll_nil : FitsAll [] := by
  intro e he
  cases he

theorem FitsAll.get? {es : Entries} {k : String} {v : Toml} (h : FitsAll es)
    (hv : get? es k = some v) : Fits v := by
  obtain ⟨e, he, rfl⟩ := Option.map_eq_some_iff.mp hv
  exact h e (List.mem_of_find?_eq_some he)

theorem FitsAll.set {es : Entries} {v : Toml} (h : FitsAll es) (k : String) (hv : Fits v) :
    FitsAll (set es k v) := by
  unfold Toml.set
  split
  · intro e he
    obtain ⟨e', he', rfl⟩ := List.mem_map.mp he
    split
    · exact hv
    · exact h e' he'
  · intro e he
    rcases List.mem_append.mp he with he | he
    · exact h e he
    · rw [List.mem_singleton.mp he]
      exact hv

/-- The last element of an array of tables may be another one that fits. -/
theorem fits_replaceLast {elements : List Entries} {es : Entries} (h : Fits (.tables elements))
    (hes : FitsAll es) : Fits (.tables (elements.dropLast ++ [es])) := by
  refine .tables fun fs hfs => ?_
  rcases List.mem_append.mp hfs with hfs | hfs
  · exact h.elements fs (List.dropLast_subset _ hfs)
  · rw [List.mem_singleton.mp hfs]
    exact hes

/-- A change of the innermost table of a header keeps all fit if it keeps that one so. -/
theorem FitsAll.withinHeader {f : Entries → Option Entries} {path : List String}
    (hf : ∀ es es', FitsAll es → f es = some es' → FitsAll es') {es es' : Entries}
    (h : FitsAll es) (hread : withinHeader es path f = some es') : FitsAll es' := by
  induction path generalizing es es' with
  | nil => exact hf es es' h hread
  | cons key rest ih =>
      rw [Toml.withinHeader] at hread
      split at hread
      · obtain ⟨inner, hinner, rfl⟩ := Option.map_eq_some_iff.mp hread
        exact h.set key (.table (ih fitsAll_nil hinner))
      · cases hread
      · rename_i hget
        obtain ⟨inner, hinner, rfl⟩ := Option.map_eq_some_iff.mp hread
        exact h.set key (.table (ih (h.get? hget).entries hinner))
      · rename_i hget
        split at hread
        · rename_i hlast
          obtain ⟨inner, hinner, rfl⟩ := Option.map_eq_some_iff.mp hread
          have helement := (h.get? hget).elements _ (List.mem_of_getLast? hlast)
          exact h.set key (fits_replaceLast (h.get? hget) (ih helement hinner))
        · cases hread
      · cases hread

theorem FitsAll.openTable {root root' : Entries} {path : List String} {key : String}
    (h : FitsAll root) (hread : openTable root path key = some root') : FitsAll root' := by
  refine FitsAll.withinHeader (fun es es' hes hopen => ?_) h hread
  split at hopen
  · cases hopen
    exact hes.set key (.table fitsAll_nil)
  · rename_i hget
    cases hopen
    exact hes.set key (.table (hes.get? hget).entries)
  · cases hopen

theorem FitsAll.openElement {root root' : Entries} {path : List String} {key : String}
    (h : FitsAll root) (hread : openElement root path key = some root') : FitsAll root' := by
  refine FitsAll.withinHeader (fun es es' hes hopen => ?_) h hread
  split at hopen
  · cases hopen
    exact hes.set key (.tables fun fs hfs => List.mem_singleton.mp hfs ▸ fitsAll_nil)
  · rename_i hget
    cases hopen
    refine hes.set key (.tables fun fs hfs => ?_)
    rcases List.mem_append.mp hfs with hfs | hfs
    · exact (hes.get? hget).elements fs hfs
    · exact List.mem_singleton.mp hfs ▸ fitsAll_nil
  · cases hopen

theorem FitsAll.putDotted {path : List String} {key : String} {v : Toml} (hv : Fits v)
    {es es' : Entries} (h : FitsAll es) (hread : putDotted es path key v = some es') :
    FitsAll es' := by
  induction path generalizing es es' with
  | nil =>
      rw [Toml.putDotted] at hread
      split at hread
      · cases hread
      · cases hread
        exact h.set key hv
  | cons step rest ih =>
      rw [Toml.putDotted] at hread
      split at hread
      · obtain ⟨inner, hinner, rfl⟩ := Option.map_eq_some_iff.mp hread
        exact h.set step (.table (ih fitsAll_nil hinner))
      · rename_i hget
        obtain ⟨inner, hinner, rfl⟩ := Option.map_eq_some_iff.mp hread
        exact h.set step (.table (ih (h.get? hget).entries hinner))
      · rename_i hget
        split at hread
        · cases hread
        · obtain ⟨inner, hinner, rfl⟩ := Option.map_eq_some_iff.mp hread
          exact h.set step (.table (ih (h.get? hget).entries hinner))
      · rename_i hget
        split at hread
        · cases hread
        · split at hread
          · rename_i hlast
            obtain ⟨inner, hinner, rfl⟩ := Option.map_eq_some_iff.mp hread
            have helement := (h.get? hget).elements _ (List.mem_of_getLast? hlast)
            exact h.set step (fits_replaceLast (h.get? hget) (ih helement hinner))
          · cases hread
      · cases hread

/-! ## Values -/

theorem inRange_wide {m n : Int} (h : inRange m = some n) : IsWide n := by
  unfold inRange at h
  split at h
  · rename_i hrange
    cases h
    simpa [IsWide] using hrange
  · cases h

theorem integer?_wide {cs : List Char} {n : Int} (h : integer? cs = some n) : IsWide n := by
  unfold integer? at h
  -- in every base the range is looked at last
  split at h
  all_goals
    obtain ⟨_, _, h⟩ := Option.bind_eq_some_iff.mp h
    obtain ⟨_, _, h⟩ := Option.bind_eq_some_iff.mp h
    exact inRange_wide h

theorem wordValue_fits {cs r : List Char} {v : Toml} (h : wordValue cs = some (v, r)) :
    Fits v := by
  unfold wordValue at h
  dsimp only at h
  split at h
  · cases h
    exact .boolean _
  split at h
  · cases h
    exact .boolean _
  split at h
  · cases h
    exact .datetime
  split at h
  · cases h
    exact .float
  split at h
  · rename_i hint
    cases h
    exact .integer (integer?_wide hint)
  · cases h

theorem stringValue_fits {cs r : List Char} {v : Toml}
    (h : ((stringValue cs).map fun (s, r) => (Toml.string s, r)) = some (v, r)) : Fits v := by
  obtain ⟨_, _, h⟩ := Option.map_eq_some_iff.mp h
  cases h
  exact .string _

/-- Values, arrays and inline tables fit, read with so much fuel. -/
structure Within (fuel : Nat) : Prop where
  value : ∀ {depth cs v r}, Toml.value depth fuel cs = some (v, r) → Fits v
  items : ∀ {depth done cs v r}, (∀ w ∈ done, Fits w) →
    Toml.items depth fuel done cs = some (v, r) → Fits v
  inline : ∀ {depth es cs v r}, FitsAll es →
    inlineEntries depth fuel es cs = some (v, r) → Fits v

theorem fits_reverse {done : List Toml} (h : ∀ w ∈ done, Fits w) : Fits (.array done.reverse) :=
  .array fun w hw => h w (List.mem_reverse.mp hw)

theorem within (fuel : Nat) : Within fuel := by
  induction fuel with
  | zero =>
      refine ⟨fun h => ?_, fun _ h => ?_, fun _ h => ?_⟩
      · rw [Toml.value] at h
        cases h
      · rw [Toml.items] at h
        cases h
      · rw [inlineEntries] at h
        cases h
  | succ fuel ih =>
      -- each of the three calls the others, and itself, with less fuel
      refine ⟨fun h => ?_, fun hdone h => ?_, fun hes h => ?_⟩
      · rw [Toml.value.eq_def] at h
        dsimp only at h
        split at h
        · exact stringValue_fits h
        · exact stringValue_fits h
        · split at h
          · cases h
          · exact ih.items (by simp) h
        · split at h
          · cases h
          · split at h
            · cases h
              exact .table fitsAll_nil
            · exact ih.inline fitsAll_nil h
        · exact wordValue_fits h
      · rw [Toml.items.eq_def] at h
        dsimp only at h
        split at h
        · cases h
        · cases h
          exact fits_reverse hdone
        · split at h
          · cases h
          · rename_i v _ hvalue
            have hmore : ∀ w ∈ v :: _, Fits w := fun w hw =>
              (List.mem_cons.mp hw).elim (fun heq => heq ▸ ih.value hvalue) (hdone w)
            split at h
            · exact ih.items hmore h
            · cases h
              exact fits_reverse hmore
            · cases h
      · rw [inlineEntries.eq_def] at h
        dsimp only at h
        split at h
        · split at h
          · cases h
          · rename_i hvalue
            split at h
            · cases h
            · rename_i hput
              have hmore := FitsAll.putDotted (ih.value hvalue) hes hput
              split at h
              · exact ih.inline hmore h
              · cases h
                exact .table hmore
              · cases h
        · cases h

theorem assignment_fits {cs rest : List Char} {path : List String} {last : String} {v : Toml}
    (h : assignment cs = some ((path, last, v), rest)) : Fits v := by
  obtain ⟨⟨⟨_, _⟩, _⟩, _, h⟩ := Option.bind_eq_some_iff.mp h
  dsimp only at h
  split at h
  · obtain ⟨⟨_, _⟩, hvalue, h⟩ := Option.bind_eq_some_iff.mp h
    cases h
    exact (within _).value hvalue
  · cases h

/-! ## Texts -/

/-- Each line keeps the tables fit. -/
theorem lines_fits {fuel : Nat} {root root' : Entries} {header : List String} {cs : List Char}
    (h : FitsAll root) (hread : lines fuel root header cs = some root') : FitsAll root' := by
  induction fuel generalizing root header cs with
  | zero =>
      rw [lines] at hread
      cases hread
  | succ fuel ih =>
      rw [lines] at hread
      split at hread
      · cases hread
        exact h
      · obtain ⟨_, _, hread⟩ := Option.bind_eq_some_iff.mp hread
        exact ih h hread
      · exact ih h hread
      · exact ih h hread
      · split at hread
        · obtain ⟨_, hopen, hread⟩ := Option.bind_eq_some_iff.mp hread
          obtain ⟨_, _, hread⟩ := Option.bind_eq_some_iff.mp hread
          exact ih (h.openElement hopen) hread
        · cases hread
      · split at hread
        · obtain ⟨_, hopen, hread⟩ := Option.bind_eq_some_iff.mp hread
          obtain ⟨_, _, hread⟩ := Option.bind_eq_some_iff.mp hread
          exact ih (h.openTable hopen) hread
        · cases hread
      · obtain ⟨⟨⟨_, _, _⟩, _⟩, hassign, hread⟩ := Option.bind_eq_some_iff.mp hread
        obtain ⟨_, hput, hread⟩ := Option.bind_eq_some_iff.mp hread
        obtain ⟨_, _, hread⟩ := Option.bind_eq_some_iff.mp hread
        have hv := assignment_fits hassign
        exact ih (h.withinHeader (fun _ _ hes => FitsAll.putDotted hv hes) hput) hread

/-- **Whatever is read from a text fits.** -/
theorem read?_fits {text : String} {root : Entries} (h : read? text = some root) :
    FitsAll root := by
  unfold read? at h
  exact lines_fits fitsAll_nil h

end Intake.Toml
