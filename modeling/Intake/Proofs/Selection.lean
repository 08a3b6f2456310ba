import Mathlib.Algebra.Group.Nat.Even
import Mathlib.Data.Nat.Count
import Mathlib.Data.Prod.Lex
import Intake.Proofs.Alignment

/-!
# The best delimiter

Which delimiter is the best one is said here of the lines alone. A character stands outside quotes
where the quotes in front of it come in pairs (`Outside`). Only those count that do so in each line.
Of two of them, one that stands there as often in each line as in the others is better than one
that does not; then the least number decides, and then the order of preference (`Outranks`).
`Chosen` is the one that is better than all others, and the comma where there is none.

Whoever chooses looks at the candidates one by one and keeps the best standing so far. `Leads` says
what is known of that one, and a look at one more candidate keeps it true (`Leads.better`).
-/

namespace Intake.Delimited

/-! ## What is best -/

/-- Holds of the places of a line where a character stands outside quotes: the quotes in front of
it come in pairs. -/
def Outside (x : Char) (l : List Char) (i : Nat) : Prop :=
  l[i]? = some x ∧ Even ((l.take i).count '"')

instance (x : Char) (l : List Char) : DecidablePred (Outside x l) :=
  fun i => inferInstanceAs (Decidable (l[i]? = some x ∧ Even ((l.take i).count '"')))

/-- How many such places there are. -/
def occurrences (x : Char) (l : List Char) : Nat :=
  Nat.count (Outside x l) l.length

/-- Holds of a character that stands outside quotes in each line. -/
def Everywhere (lines : List (List Char)) (x : Char) : Prop :=
  ∀ l ∈ lines, ∃ i, Outside x l i

/-- Holds of a character that stands outside quotes as often in each line as in the others. -/
def Steady (lines : List (List Char)) (x : Char) : Prop :=
  ∀ l ∈ lines, ∀ l' ∈ lines, occurrences x l = occurrences x l'

instance (lines : List (List Char)) (x : Char) : Decidable (Steady lines x) :=
  inferInstanceAs (Decidable (∀ l ∈ lines, ∀ l' ∈ lines, occurrences x l = occurrences x l'))

/-- How often a character stands outside quotes in the line that has it least. -/
def fewest (lines : List (List Char)) (x : Char) : Nat :=
  (lines.map (occurrences x)).min?.getD 0

/-- Holds of two characters of which the first is better. The order is that of preference. -/
inductive Outranks (order : List Char) (lines : List (List Char)) (x y : Char) : Prop
  | steady : Steady lines x → ¬ Steady lines y → Outranks order lines x y
  | more : (Steady lines x ↔ Steady lines y) → fewest lines y < fewest lines x →
      Outranks order lines x y
  | preferred : (Steady lines x ↔ Steady lines y) → fewest lines y = fewest lines x →
      order.idxOf x < order.idxOf y → Outranks order lines x y

/-- **What is to be chosen for some lines.** -/
inductive Chosen (order : List Char) (lines : List (List Char)) : Char → Prop
  | best {x : Char} : lines ≠ [] → x ∈ order → Everywhere lines x →
      (∀ y ∈ order, Everywhere lines y → y ≠ x → Outranks order lines x y) →
      Chosen order lines x
  | comma : (lines = [] ∨ ∀ y ∈ order, ¬ Everywhere lines y) → Chosen order lines ','

/-- The lines of a text that are not blank. -/
def visibleLines (cs : List Char) : List (List Char) :=
  (Text.linesOf cs).filter fun l => !l.all Text.isBlank

variable {order : List Char} {lines : List (List Char)} {x y : Char}

theorem Outranks.asymm (h : Outranks order lines x y) : ¬ Outranks order lines y x := by
  intro h'
  cases h with
  | steady hx hy =>
      cases h' with
      | steady hy' _ => exact hy hy'
      | more hiff _ => exact hy (hiff.mpr hx)
      | preferred hiff _ _ => exact hy (hiff.mpr hx)
  | more hiff hlt =>
      cases h' with
      | steady hy hx => exact hx (hiff.mpr hy)
      | more _ hlt' => omega
      | preferred _ heq _ => omega
  | preferred hiff heq hidx =>
      cases h' with
      | steady hy hx => exact hx (hiff.mpr hy)
      | more _ hlt => omega
      | preferred _ _ hidx' => omega

/-- **No two are to be chosen.** -/
theorem Chosen.unique (hx : Chosen order lines x) (hy : Chosen order lines y) : x = y := by
  cases hx with
  | best hsome hmem hall hbest =>
      cases hy with
      | best _ hmem' hall' hbest' =>
          by_contra hne
          exact (hbest y hmem' hall' (Ne.symm hne)).asymm (hbest' x hmem hall hne)
      | comma hnone => exact absurd hall (hnone.resolve_left hsome x hmem)
  | comma hnone =>
      cases hy with
      | best hsome hmem hall _ => exact absurd hall (hnone.resolve_left hsome y hmem)
      | comma _ => rfl

theorem Chosen.mem (h : Chosen order lines x) (hcomma : ',' ∈ order) : x ∈ order := by
  cases h with
  | best _ hmem _ _ => exact hmem
  | comma _ => exact hcomma

/-! ## Counting -/

/-- **In the middle of a line** a quote is open if those that were read come in no pairs, and what
was counted are the places that were passed. -/
theorem countFrom_read (hx : x ≠ '"') (read rest : List Char) :
    countFrom x (!decide (Even (read.count '"')))
      (Nat.count (Outside x (read ++ rest)) read.length) rest = occurrences x (read ++ rest) := by
  induction rest generalizing read with
  | nil =>
      rw [List.append_nil]
      rfl
  | cons c rest ih =>
      have hplace : Outside x (read ++ c :: rest) read.length
          ↔ c = x ∧ Even (read.count '"') := by
        unfold Outside
        simp
      have hnext := ih (read ++ [c])
      rw [List.append_assoc, List.singleton_append, List.length_append, List.length_singleton,
        Nat.count_succ, List.count_append, List.count_singleton] at hnext
      rw [← hnext]
      by_cases hc : c = '"'
      · subst hc
        have hnot : ¬ Outside x (read ++ '"' :: rest) read.length :=
          fun h => hx (hplace.mp h).1.symm
        rw [countFrom_quote hx, if_neg hnot]
        simp only [beq_self_eq_true, if_true, Nat.even_add_one, decide_not, Nat.add_zero]
      · have hquotes : read.count '"' + (if c == '"' then 1 else 0) = read.count '"' := by
          simp [hc]
        rw [hquotes]
        by_cases hcx : c = x
        · subst hcx
          by_cases heven : Even (read.count '"')
          · rw [if_pos (hplace.mpr ⟨rfl, heven⟩), decide_eq_true heven, Bool.not_true,
              countFrom_self hx]
          · rw [if_neg fun h => heven (hplace.mp h).2, decide_eq_false heven, Bool.not_false,
              countFrom_hidden hc]
            rfl
        · rw [countFrom_other hc hcx, if_neg fun h => hcx (hplace.mp h).1]
          rfl

/-- **What is counted are the places outside quotes.** -/
theorem count_eq_occurrences (hx : x ≠ '"') (l : List Char) :
    count x l = occurrences x l :=
  countFrom_read hx [] l

theorem occurrences_ne_zero_iff {l : List Char} :
    occurrences x l ≠ 0 ↔ ∃ i, Outside x l i := by
  unfold occurrences
  rw [Ne, Nat.count_iff_forall_not]
  constructor
  · intro h
    by_contra hnone
    exact h fun i _ hi => hnone ⟨i, hi⟩
  · rintro ⟨i, hi⟩ hnone
    obtain ⟨hlt, _⟩ := List.getElem?_eq_some_iff.mp hi.1
    exact hnone i hlt hi

/-! ## Standings -/

/-- The standing that a character should have. -/
def merit (lines : List (List Char)) (x : Char) : Standing :=
  { delimiter := x, consistent := decide (Steady lines x), least := fewest lines x }

theorem fewest_cons {n : Nat} {ns : List Nat} (h : lines.map (occurrences x) = n :: ns) :
    fewest lines x = ns.foldl min n := by
  unfold fewest
  rw [h]
  rfl

/-- One line has the least number, and none has less. -/
theorem fewest_isLeast (hsome : lines ≠ []) :
    (∃ l ∈ lines, occurrences x l = fewest lines x)
      ∧ ∀ l ∈ lines, fewest lines x ≤ occurrences x l := by
  cases hc : lines.map (occurrences x) with
  | nil => exact absurd (List.map_eq_nil_iff.mp hc) hsome
  | cons n ns =>
      have hmin : (lines.map (occurrences x)).min? = some (fewest lines x) := by
        rw [fewest_cons hc, hc]
        exact List.min?_cons'
      obtain ⟨hmem, hle⟩ := List.min?_eq_some_iff.mp hmin
      exact ⟨List.mem_map.mp hmem, fun l hl => hle _ (List.mem_map_of_mem hl)⟩

theorem everywhere_iff (hsome : lines ≠ []) : Everywhere lines x ↔ fewest lines x ≠ 0 := by
  obtain ⟨⟨l, hl, hleast⟩, hle⟩ := fewest_isLeast (x := x) hsome
  constructor
  · intro h
    rw [← hleast]
    exact occurrences_ne_zero_iff.mpr (h l hl)
  · intro h l' hl'
    have hl' := hle l' hl'
    exact occurrences_ne_zero_iff.mp (by omega)

theorem steady_iff (hsome : lines ≠ []) :
    Steady lines x ↔ ∀ l ∈ lines, occurrences x l = fewest lines x := by
  obtain ⟨⟨l, hl, hleast⟩, _⟩ := fewest_isLeast (x := x) hsome
  constructor
  · intro h l' hl'
    rw [← hleast]
    exact h l' hl' l hl
  · intro h l₁ hl₁ l₂ hl₂
    rw [h l₁ hl₁, h l₂ hl₂]

/-- **Whoever is outside quotes in each line has a standing**, and it is the right one. -/
theorem standing?_eq_some_iff (hx : x ≠ '"') {s : Standing} :
    standing? lines x = some s ↔ lines ≠ [] ∧ Everywhere lines x ∧ s = merit lines x := by
  have hcounts : lines.map (count x) = lines.map (occurrences x) :=
    List.map_congr_left fun l _ => count_eq_occurrences hx l
  unfold standing?
  rw [hcounts]
  cases hc : lines.map (occurrences x) with
  | nil =>
      have hnil : lines = [] := List.map_eq_nil_iff.mp hc
      simp [hnil]
  | cons n ns =>
      have hsome : lines ≠ [] := by
        rintro rfl
        exact absurd hc (by simp)
      have hall : (n :: ns).all (· == fewest lines x) = decide (Steady lines x) := by
        rw [← hc, Bool.eq_iff_iff, decide_eq_true_eq, steady_iff hsome, List.all_eq_true]
        simp
      dsimp only
      rw [← fewest_cons hc, hall, everywhere_iff hsome]
      by_cases hzero : fewest lines x = 0
      · simp [hzero]
      · rw [if_neg hzero, Option.some.injEq]
        exact ⟨fun h => ⟨hsome, hzero, h.symm⟩, fun h => h.2.2.symm⟩

/-- What standings are compared by. -/
def Standing.rank (s : Standing) : Bool ×ₗ Nat :=
  toLex (s.consistent, s.least)

theorem Standing.beats_iff {s t : Standing} : s.beats t = true ↔ t.rank < s.rank := by
  unfold beats rank
  rw [Prod.Lex.toLex_lt_toLex]
  cases s.consistent <;> cases t.consistent <;> simp

/-- The one with the better standing is better, and of two with equal ones the one that is
preferred. -/
theorem Outranks.of_rank (h : (merit lines y).rank < (merit lines x).rank
      ∨ (merit lines y).rank = (merit lines x).rank ∧ order.idxOf x < order.idxOf y) :
    Outranks order lines x y := by
  unfold Standing.rank merit at h
  rw [Prod.Lex.toLex_lt_toLex, toLex_inj, Prod.mk.injEq] at h
  dsimp only at h
  rcases h with (hlt | ⟨heq, hlt⟩) | ⟨⟨heq, heq'⟩, hidx⟩
  · obtain ⟨hy, hx⟩ := Bool.lt_iff.mp hlt
    exact .steady (of_decide_eq_true hx) (of_decide_eq_false hy)
  · exact .more (decide_eq_decide.mp heq).symm hlt
  · exact .preferred (decide_eq_decide.mp heq).symm heq' hidx

/-! ## The choice -/

/-- The standing to begin with, which is no candidate's. -/
def nobody : Standing :=
  { delimiter := ',', consistent := false, least := 0 }

/-- **What is known of the best standing after some candidates**: none of them has one, or one of
them has it, and the others that have one are behind or come later. -/
inductive Leads (lines : List (List Char)) (seen : List Char) : Standing → Prop
  | nobody : (∀ y ∈ seen, standing? lines y = none) → Leads lines seen nobody
  | somebody {x : Char} : x ∈ seen → standing? lines x = some (merit lines x) →
      (∀ y ∈ seen, standing? lines y = some (merit lines y) → y ≠ x →
        (merit lines y).rank < (merit lines x).rank
          ∨ (merit lines y).rank = (merit lines x).rank ∧ seen.idxOf x < seen.idxOf y) →
      Leads lines seen (merit lines x)

variable {seen : List Char} {best : Standing}

theorem beats_nobody (hx : x ≠ '"') (hs : standing? lines x = some (merit lines x)) :
    (merit lines x).beats nobody = true := by
  obtain ⟨hsome, hall, _⟩ := (standing?_eq_some_iff hx).mp hs
  have hleast : 0 < fewest lines x := Nat.pos_of_ne_zero ((everywhere_iff hsome).mp hall)
  rw [Standing.beats_iff]
  unfold Standing.rank merit nobody
  rw [Prod.Lex.toLex_lt_toLex]
  cases decide (Steady lines x) with
  | true => exact Or.inl rfl
  | false => exact Or.inr ⟨rfl, hleast⟩

namespace Leads

/-- None that was seen has a better standing. -/
theorem rank_le (h : Leads lines seen best) (hy : y ∈ seen)
    (hs : standing? lines y = some (merit lines y)) : (merit lines y).rank ≤ best.rank := by
  cases h with
  | nobody hnone =>
      rw [hnone y hy] at hs
      exact absurd hs (by simp)
  | @somebody x _ _ hothers =>
      by_cases hyx : y = x
      · rw [hyx]
      · rcases hothers y hy hs hyx with hlt | ⟨heq, _⟩
        · exact hlt.le
        · exact heq.le

/-- One with a better standing is ahead of all that were seen. -/
theorem replace (h : Leads lines seen best) (hs : standing? lines x = some (merit lines x))
    (hbeats : (merit lines x).beats best = true) : Leads lines (seen ++ [x]) (merit lines x) := by
  refine .somebody (List.mem_append_right _ (List.mem_singleton_self x)) hs
    fun y hy ht hne => ?_
  rcases List.mem_append.mp hy with hy | hy
  · exact Or.inl ((h.rank_le hy ht).trans_lt (Standing.beats_iff.mp hbeats))
  · exact absurd (List.mem_singleton.mp hy) hne

/-- One with no better standing is behind or, if they are equal, comes too late. -/
theorem keep (h : Leads lines seen best) (hx : x ≠ '"') (hnew : x ∉ seen)
    (hbehind : ∀ s, standing? lines x = some s → ¬ s.beats best = true) :
    Leads lines (seen ++ [x]) best := by
  cases h with
  | nobody hnone =>
      have hlast : standing? lines x = none := by
        by_contra hsome
        obtain ⟨s, hs⟩ := Option.ne_none_iff_exists'.mp hsome
        obtain ⟨_, _, rfl⟩ := (standing?_eq_some_iff hx).mp hs
        exact hbehind _ hs (beats_nobody hx hs)
      exact .nobody (List.forall_mem_append.mpr ⟨hnone, List.forall_mem_singleton.mpr hlast⟩)
  | @somebody b hmem hbest hothers =>
      refine .somebody (List.mem_append_left _ hmem) hbest fun y hy hs hne => ?_
      rw [List.idxOf_append_of_mem hmem]
      rcases List.mem_append.mp hy with hy | hy
      · rw [List.idxOf_append_of_mem hy]
        exact hothers y hy hs hne
      · rw [List.mem_singleton.mp hy] at hs ⊢
        have hle : (merit lines x).rank ≤ (merit lines b).rank :=
          not_lt.mp fun hlt => hbehind _ hs (Standing.beats_iff.mpr hlt)
        have hbefore : seen.idxOf b < (seen ++ [x]).idxOf x := by
          rw [List.idxOf_append_of_notMem hnew]
          exact Nat.lt_add_right _ (List.idxOf_lt_length_iff.mpr hmem)
        exact hle.lt_or_eq.imp_right fun heq => ⟨heq, hbefore⟩

/-- **A look at one more candidate.** -/
theorem better (h : Leads lines seen best) (hx : x ≠ '"') (hnew : x ∉ seen) :
    Leads lines (seen ++ [x]) (better lines best x) := by
  unfold Delimited.better
  cases hs : standing? lines x with
  | none => exact h.keep hx hnew fun s hs' => absurd (hs.symm.trans hs') (by simp)
  | some s =>
      dsimp only
      by_cases hbeats : s.beats best = true
      · rw [if_pos hbeats]
        obtain ⟨_, _, rfl⟩ := (standing?_eq_some_iff hx).mp hs
        exact h.replace hs hbeats
      · rw [if_neg hbeats]
        refine h.keep hx hnew fun t ht => ?_
        rw [hs] at ht
        rwa [← Option.some.inj ht]

/-- **A look at all of them.** -/
theorem foldl (h : Leads lines seen best) {xs : List Char} (hxs : ∀ x ∈ xs, x ≠ '"')
    (hnodup : (seen ++ xs).Nodup) :
    Leads lines (seen ++ xs) (xs.foldl (Delimited.better lines) best) := by
  induction xs generalizing seen best with
  | nil =>
      rw [List.append_nil]
      exact h
  | cons x xs ih =>
      obtain ⟨hx, hrest⟩ := List.forall_mem_cons.mp hxs
      have hnew : x ∉ seen := fun hmem =>
        (List.nodup_append.mp hnodup).2.2 x hmem x List.mem_cons_self rfl
      rw [List.append_cons] at hnodup ⊢
      exact ih (h.better hx hnew) hrest hnodup

/-- **The one that leads is to be chosen.** -/
theorem chosen (h : Leads lines seen best) (hseen : ∀ x ∈ seen, x ≠ '"') :
    Chosen seen lines best.delimiter := by
  have hstanding : ∀ y ∈ seen, lines ≠ [] → Everywhere lines y →
      standing? lines y = some (merit lines y) := by
    intro y hy hsome hall
    exact (standing?_eq_some_iff (hseen y hy)).mpr ⟨hsome, hall, rfl⟩
  cases h with
  | nobody hnone =>
      refine .comma ?_
      by_cases hsome : lines = []
      · exact Or.inl hsome
      · refine Or.inr fun y hy hall => ?_
        have hs := hstanding y hy hsome hall
        rw [hnone y hy] at hs
        exact absurd hs (by simp)
  | @somebody x hmem hbest hothers =>
      obtain ⟨hsome, hall, _⟩ := (standing?_eq_some_iff (hseen x hmem)).mp hbest
      refine .best hsome hmem hall fun y hy hall' hne => ?_
      exact .of_rank (hothers y hy (hstanding y hy hsome hall') hne)

end Leads

theorem chosen_sniff (cs : List Char) : Chosen candidates (sample cs) (sniff cs) := by
  have hquote : ∀ x ∈ candidates, x ≠ '"' := fun _ hx => (candidates_ne hx).1
  have hstart : Leads (sample cs) [] nobody := .nobody (List.forall_mem_nil _)
  exact (hstart.foldl hquote (by decide)).chosen hquote

/-! ## What makes no difference -/

/-- The choice goes by the counts alone. -/
theorem sniff_eq_of_counts {cs cs' : List Char}
    (h : ∀ d ∈ candidates, counts d cs = counts d cs') : sniff cs = sniff cs' := by
  have hfold : candidates.foldl (better (sample cs)) nobody
      = candidates.foldl (better (sample cs')) nobody := by
    refine List.foldl_ext _ _ _ fun best d hd => ?_
    have hcounts : (sample cs).map (count d) = (sample cs').map (count d) := h d hd
    unfold better standing?
    rw [hcounts]
  exact congrArg Standing.delimiter hfold

theorem counts_eq (x : Char) (cs : List Char) :
    counts x cs = ((visibleLines cs).map (count x)).take sampleSize :=
  List.map_take

/-- What a line adds to the counts: nothing if it is blank. -/
def lineCounts (x : Char) (l : List Char) : List Nat :=
  ([l].filter fun l => !l.all Text.isBlank).map (count x)

theorem countFrom_return (hx : x ≠ '\r') (quoted : Bool) (n : Nat) (l : List Char) :
    countFrom x quoted n (l ++ ['\r']) = countFrom x quoted n l := by
  induction l generalizing quoted n with
  | nil => exact countFrom_other (by decide) hx.symm quoted n []
  | cons c l ih => exact ih _ _

/-- Whether a carriage return belongs to a line or to its end makes no difference. -/
theorem lineCounts_dropReturn (hx : x ≠ '\r') (l : List Char) :
    lineCounts x (Text.dropReturn l.reverse).reverse = lineCounts x l := by
  unfold Text.dropReturn
  split
  · rename_i r hr
    have hl : l = r.reverse ++ ['\r'] := by
      rw [← List.reverse_reverse l, hr, List.reverse_cons]
    have hcount : count x l = count x r.reverse := by
      rw [hl]
      exact countFrom_return hx false 0 r.reverse
    have hblank : l.all Text.isBlank = r.reverse.all Text.isBlank := by
      rw [hl, List.all_append]
      exact Bool.and_true _
    unfold lineCounts
    rw [List.filter_singleton, List.filter_singleton, hblank]
    cases r.reverse.all Text.isBlank with
    | true => rfl
    | false => exact congrArg (fun n => [n]) hcount.symm
  · rw [List.reverse_reverse]

theorem visibleCounts_line {l : List Char} (hl : '\n' ∉ l) (hx : x ≠ '\r') (cs : List Char) :
    (visibleLines (l ++ '\n' :: cs)).map (count x)
      = lineCounts x l ++ (visibleLines cs).map (count x) := by
  rw [← lineCounts_dropReturn hx l]
  unfold visibleLines lineCounts
  rw [linesOf_line hl, ← List.map_append, ← List.filter_append]
  rfl

theorem visibleCounts_unended {l : List Char} (hl : '\n' ∉ l) :
    (visibleLines l).map (count x) = lineCounts x l := by
  unfold visibleLines lineCounts
  by_cases hsome : l = []
  · subst hsome
    rfl
  · rw [linesOf_unended hl hsome]

/-- **Further lines are counted behind the others.** -/
theorem visibleCounts_append (hx : x ≠ '\r') (cs rest : List Char) :
    (visibleLines (cs ++ '\n' :: rest)).map (count x)
      = (visibleLines cs).map (count x) ++ (visibleLines rest).map (count x) := by
  induction hn : cs.length using Nat.strongRecOn generalizing cs with
  | ind n ih =>
    by_cases hfeed : '\n' ∈ cs
    · obtain ⟨l, more, rfl, hl⟩ := List.eq_append_cons_of_mem hfeed
      have hmore := ih more.length (by simp at hn; omega) more rfl
      rw [List.append_assoc, List.cons_append, visibleCounts_line hl hx, visibleCounts_line hl hx,
        hmore, List.append_assoc]
    · rw [visibleCounts_line hfeed hx, visibleCounts_unended hfeed]

/-- Where there are enough lines, those behind them are not looked at. -/
theorem counts_append (hx : x ≠ '\r') {cs : List Char}
    (hfull : sampleSize ≤ (visibleLines cs).length) (rest : List Char) :
    counts x (cs ++ '\n' :: rest) = counts x cs := by
  have hlen : sampleSize ≤ ((visibleLines cs).map (count x)).length := by
    rw [List.length_map]
    exact hfull
  rw [counts_eq, counts_eq, visibleCounts_append hx, List.take_append_of_le_length hlen]

/-! ## The result -/

/-- **The delimiter that is chosen is the best of the five**, for every text. After fifteen lines
that are not blank it is settled, whatever comes on further lines. -/
theorem sniff_chosen (cs : List Char) :
    (∀ d, sniff cs = d ↔ Chosen [',', '\t', ';', ':', '|'] ((visibleLines cs).take 15) d)
      ∧ sniff cs ∈ [',', '\t', ';', ':', '|']
      ∧ (15 ≤ (visibleLines cs).length → ∀ rest, sniff (cs ++ '\n' :: rest) = sniff cs) := by
  have hchosen : Chosen [',', '\t', ';', ':', '|'] ((visibleLines cs).take 15) (sniff cs) :=
    chosen_sniff cs
  refine ⟨fun d => ⟨?_, fun h => hchosen.unique h⟩, hchosen.mem List.mem_cons_self,
    fun hfull rest => ?_⟩
  · rintro rfl
    exact hchosen
  · exact sniff_eq_of_counts fun d hd => counts_append (candidates_ne hd).2.2 hfull rest

/-- Colons are there most often, but not in each line as often; semicolons and bars are equal; and
commas are in quotes or missing, but for the line after the fifteenth. -/
theorem sniff_chosen_tied :
    let line := "\"1,5\":x:y;z|\r\n\n".toList
    let cs := "a:b:c:d;e|\n".toList ++ (List.replicate 13 line).flatten ++ "::;|".toList
    let rest := "f,g\n".toList
    15 ≤ (visibleLines cs).length ∧ sniff cs = ';'
      ∧ Chosen [',', '\t', ';', ':', '|'] ((visibleLines cs).take 15) ';'
      ∧ ¬ Chosen [',', '\t', ';', ':', '|'] ((visibleLines cs).take 15) '|'
      ∧ sniff (cs ++ '\n' :: rest) = sniff cs := by
  intro line cs rest
  obtain ⟨hchosen, _, hsettled⟩ := sniff_chosen cs
  have hfull : 15 ≤ (visibleLines cs).length := by decide
  have hsniff : sniff cs = ';' := by decide
  refine ⟨hfull, hsniff, (hchosen ';').mp hsniff, fun hbar => ?_, hsettled hfull rest⟩
  rw [← hchosen, hsniff] at hbar
  exact absurd hbar (by decide)

end Intake.Delimited
