import Intake.Proofs.Neighbours
import Intake.Sink

/-!
# Looking for a session that is still to come

A sink may be attached before its session is opened. The call looks the session up at once and
again after rests of 100 ms, and gives up when it has found nothing and its grace period is over.
A look-up is several steps: the call reads the registry, and then either asks for the reader's
place of the entry it found, or reads the clock and rests. Between any two of these steps sessions
are opened and closed, an id is off the list while its entry is not closed yet, readers come and
go, and the clock jumps as it likes, past several look-ups if need be. `Lobby.move` is one step of
all this.

The look-ups are few, the call does not give up early, and a session that was there for a look-up
is what the call finds: `lobby_finds`. What the call gives up on is the clock that it read last. So
a session can come in time and not be looked for, when the clock passes the end of the grace period
between the last look-up and that reading (`lobby_misses`).
-/

namespace Intake

/-! ## Entries keep their sessions -/

/-- The entry of a handle is one of the session. -/
def Registry.Names (r : Registry) (h : Handle) (id : String) : Prop :=
  ∃ e, r.entry? h = some e ∧ e.session = id

namespace Registry

variable {r r' : Registry} {h : Handle} {id : String}

theorem Names.modify (hn : r.Names h id) {k : Handle} {f : Entry → Entry}
    (hf : ∀ e, r.entry? k = some e → (f e).session = e.session) : Names (r.modify k f) h id := by
  obtain ⟨e, he, hid⟩ := hn
  by_cases hk : k = h
  · subst hk
    exact ⟨f e, entry?_modify_self he, (hf e he).trans hid⟩
  · exact ⟨e, (entry?_modify_ne hk).trans he, hid⟩

/-- **No call changes the session of an entry.** -/
theorem Names.became {o c : Option Nat} (hn : r.Names h id) (hb : r.Became o c r') :
    r'.Names h id := by
  cases hb with
  | same => exact hn
  | opened s _ =>
      obtain ⟨e, he, hid⟩ := hn
      exact ⟨e, entry?_opened_old he, hid⟩
  | removed s k _ =>
      have hclosed : Names (r.modify k Entry.close) h id := hn.modify fun _ _ => rfl
      exact hclosed
  | kept hk hkeep =>
      refine hn.modify fun f hf => ?_
      rw [hk] at hf
      cases hf
      exact hkeep.session
  | orphanClosed _ _ => exact hn.modify fun _ _ => rfl

theorem Names.unlist (hn : r.Names h id) (s : String) : Names (r.unlist s) h id := hn

theorem Names.cancel (hn : r.Names h id) (k : Handle) : Names (r.cancel k) h id :=
  hn.modify fun _ _ => rfl

end Registry

/-! ## The call at its beginning -/

/-- What attaching begins with, when there is an id. -/
theorem Attachment.start_eq (id : String) (now grace : Nat) :
    start id now grace = if Text.trim id = "" then .error .missingSessionId
      else .ok { id := Text.trim id, giveUp := now + grace, next := now } := by
  unfold start
  dsimp only
  by_cases hid : Text.trim id = ""
  · rw [if_pos hid, hid]
    rfl
  · rw [if_neg hid, if_neg (by simpa using hid)]

/-- A session is opened under the id that was asked for, without the blanks around it. -/
theorem Prepared.open?_id {table : ExtractorTable} {settings : SessionSettings}
    {id : Option String} {files : List Submission} {hub hub' : Hub} {p : Prepared}
    (ho : Prepared.open? table settings id files hub = (.ok p, hub')) {text : String}
    (hid : id = some text) (hsome : Text.trim text ≠ "") : p.id = Text.trim text := by
  subst hid
  unfold Prepared.open? at ho
  dsimp only at ho
  split at ho
  · exact absurd (congrArg Prod.fst ho) (by simp)
  · split at ho
    · exact absurd (congrArg Prod.fst ho) (by simp)
    · have hp := Except.ok.inj (congrArg Prod.fst ho)
      rw [← hp]
      unfold Identifier.resolve
      dsimp only
      rw [if_neg (by simpa using hsome)]

/-! ## A call among all others -/

/-- How far a call is that has a sink attached. -/
inductive Search.State where
  /-- It waits for the next look-up. -/
  | looking (a : Attachment)
  /-- The look-up found an entry, whose reader's place was not asked for yet. -/
  | claiming (a : Attachment) (h : Handle)
  /-- The look-up found nothing, and the clock was not read yet. -/
  | judging (a : Attachment)
  /-- The clock was read in time, and the rest has not begun. -/
  | resting (a : Attachment)
  | found (s : Sink)
  | failed (error : SinkError)

/-- A call that has a sink attached. -/
structure Search where
  text : String
  grace : Nat
  started : Nat
  state : Search.State

namespace Search

/-- What becomes of the call when it asks for a reader's place. -/
def State.after : Attachment.Step → State
  | .attached s _ => found s
  | .failed e => failed e
  | .again a => looking a

/-- The call at its beginning. -/
def of (text : String) (grace now : Nat) : Search where
  text := text
  grace := grace
  started := now
  state := match Attachment.start text now grace with
    | .ok a => .looking a
    | .error e => .failed e

end Search

/-- The registry after a reader's place was asked for. -/
def Attachment.Step.registry (r : Registry) : Attachment.Step → Registry
  | attached _ r => r
  | _ => r

/-- A look-up of the call. -/
structure Look where
  time : Nat
  /-- The registry that was read. -/
  registry : Registry

/-- A session that was opened. -/
structure Opening where
  /-- The id that was asked for. -/
  given : Option String
  /-- The id that it has. -/
  session : String
  handle : Handle
  time : Nat
  /-- How many look-ups the call had made by then. -/
  looks : Nat

/-- A call that has a sink attached, and all that happens around it. -/
structure Lobby where
  hub : Hub := {}
  search : Option Search := none
  /-- The look-ups of the call, in order. -/
  looks : List Look := []
  /-- What the clock said when the call read it last. -/
  clock : Option Nat := none
  /-- The registry in which the call asked for a reader's place. -/
  asked : Option Registry := none
  /-- The sessions that were opened, in order. -/
  openings : List Opening := []

namespace Lobby

/-- A session that is opened now. -/
def opening (t : Lobby) (given : Option String) (p : Prepared) : Opening where
  given := given
  session := p.id
  handle := p.handle
  time := t.hub.now
  looks := t.looks.length

/-- What can happen next. -/
inductive Move where
  /-- The call is made. -/
  | attach (text : String) (grace : Nat)
  /-- It goes on by one step. -/
  | go
  /-- A session is opened. -/
  | prepare (table : ExtractorTable) (settings : SessionSettings) (id : Option String)
      (files : List Submission)
  /-- Anything else is asked of the registry, by readers too. -/
  | ask (c : Registry.Call)
  /-- A close has taken an id off the list. -/
  | unlist (id : String)
  /-- A close gets to its entry. -/
  | cancel (h : Handle)
  | wait (ms : Nat)
  /-- Others use the spools and take ids, and gates open and close. -/
  | outside (spools : Spools) (gates : List String) (serial : Nat)

/-- The state of things after the call went on by one step, or had to wait. -/
def go (t : Lobby) (s : Search) : Lobby :=
  match s.state with
  | .looking a =>
    match a.look? t.hub.registry t.hub.now with
    | none => t
    | some found =>
      { t with
        search := some { s with state := match found with
          | some h => .claiming a h
          | none => .judging a }
        looks := t.looks ++ [{ time := t.hub.now, registry := t.hub.registry }] }
  | .claiming a h =>
    let step := a.claim h t.hub.registry
    { t with
      hub := { t.hub with registry := step.registry t.hub.registry }
      search := some { s with state := .after step }
      asked := some t.hub.registry }
  | .judging a =>
    let state := if a.isOver t.hub.now then .failed (.unknownSession a.id) else .resting a
    { t with search := some { s with state }, clock := some t.hub.now }
  | .resting a => { t with search := some { s with state := .looking (a.rest t.hub.now) } }
  | .found _ | .failed _ => t

/-- The state of things after a move. A move that cannot be made changes nothing. -/
def move (t : Lobby) : Move → Lobby
  | .attach text grace =>
    match t.search with
    | none => { t with search := some (.of text grace t.hub.now) }
    | some _ => t
  | .go =>
    match t.search with
    | none => t
    | some s => t.go s
  | .prepare table settings id files =>
    match Prepared.open? table settings id files t.hub with
    | (.ok p, hub) => { t with hub, openings := t.openings ++ [t.opening id p] }
    | (.error _, hub) => { t with hub }
  | .ask c => { t with hub := { t.hub with registry := t.hub.registry.call c } }
  | .unlist id => { t with hub := { t.hub with registry := t.hub.registry.unlist id } }
  | .cancel h => { t with hub := { t.hub with registry := t.hub.registry.cancel h } }
  | .wait ms => { t with hub := { t.hub with now := t.hub.now + ms } }
  | .outside spools gates serial => { t with hub := { t.hub with spools, gates, serial } }

/-- The state of things after some moves. -/
def play (t : Lobby) (ms : List Move) : Lobby :=
  ms.foldl move t

end Lobby

/-! ## The call -/

/-- Holds of an entry whose reader's place was never taken. -/
def Registry.Free (r : Registry) (h : Handle) : Prop :=
  ∃ e, r.entry? h = some e ∧ e.reader = .awaited

/-- What holds of the look-ups after which a call went on. -/
structure Search.Missed (id : String) (started giveUp : Nat) (looks : List Look) : Prop where
  named : id ≠ ""
  /-- They are 100 ms apart, or more, -/
  spaced : ∀ (k : Nat) l, looks[k]? = some l → started + 100 * k ≤ l.time
  /-- in the grace period, -/
  early : ∀ l ∈ looks, l.time < giveUp
  /-- and found nothing. -/
  missed : ∀ l ∈ looks, l.registry.lookup? id = none

/-- **The invariant of a call**: how it stands, with its look-ups, its last reading of the clock and
the registry in which it asked for a reader's place. Only the last look-up can be one that found
an entry, or one after which the call gave up. -/
inductive Search.Stands (id : String) (started giveUp : Nat) :
    Search.State → List Look → Option Nat → Option Registry → Prop where
  | missing {clock : Option Nat} {asked : Option Registry} (hid : id = "") :
      Stands id started giveUp (.failed .missingSessionId) [] clock asked
  | looking {a : Attachment} {looks : List Look} {clock : Option Nat} {asked : Option Registry}
      (hm : Missed id started giveUp looks) (hid : a.id = id) (hgive : a.giveUp = giveUp)
      (hnext : started + 100 * looks.length ≤ a.next)
      (hpace : looks = [] ∧ a.next = started ∨ ∃ l, looks.getLast? = some l ∧ l.time + 100 ≤ a.next) :
      Stands id started giveUp (.looking a) looks clock asked
  | claiming {a : Attachment} {h : Handle} {looks : List Look} {l : Look} {clock : Option Nat}
      {asked : Option Registry} (hm : Missed id started giveUp looks) (hid : a.id = id)
      (hnext : started + 100 * looks.length ≤ l.time) (hl : l.registry.lookup? id = some h) :
      Stands id started giveUp (.claiming a h) (looks ++ [l]) clock asked
  | judging {a : Attachment} {looks : List Look} {l : Look} {clock : Option Nat}
      {asked : Option Registry} (hm : Missed id started giveUp looks) (hid : a.id = id)
      (hgive : a.giveUp = giveUp) (hnext : started + 100 * looks.length ≤ l.time)
      (hl : l.registry.lookup? id = none) :
      Stands id started giveUp (.judging a) (looks ++ [l]) clock asked
  | resting {a : Attachment} {looks : List Look} {l : Look} {clock : Option Nat}
      {asked : Option Registry} (hm : Missed id started giveUp (looks ++ [l])) (hid : a.id = id)
      (hgive : a.giveUp = giveUp) :
      Stands id started giveUp (.resting a) (looks ++ [l]) clock asked
  | found {h : Handle} {looks : List Look} {l : Look} {clock : Option Nat} {r : Registry}
      (hm : Missed id started giveUp looks) (hnext : started + 100 * looks.length ≤ l.time)
      (hl : l.registry.lookup? id = some h) (hfree : r.Free h) :
      Stands id started giveUp (.found { handle := h }) (looks ++ [l]) clock (some r)
  | taken {h : Handle} {looks : List Look} {l : Look} {clock : Option Nat} {r : Registry}
      (hm : Missed id started giveUp looks) (hnext : started + 100 * looks.length ≤ l.time)
      (hl : l.registry.lookup? id = some h) (hfree : ¬ r.Free h) :
      Stands id started giveUp (.failed (.alreadyAttached id)) (looks ++ [l]) clock (some r)
  | unknown {looks : List Look} {l : Look} {c : Nat} {asked : Option Registry}
      (hm : Missed id started giveUp looks) (hnext : started + 100 * looks.length ≤ l.time)
      (hl : l.registry.lookup? id = none) (htime : l.time ≤ c) (hlate : giveUp ≤ c) :
      Stands id started giveUp (.failed (.unknownSession id)) (looks ++ [l]) (some c) asked

/-- How the call itself stands. -/
def Search.Inv (s : Search) (looks : List Look) (clock : Option Nat) (asked : Option Registry) :
    Prop :=
  Stands (Text.trim s.text) s.started (s.started + s.grace) s.state looks clock asked

namespace Search

variable {id : String} {started giveUp : Nat} {state : State} {looks : List Look} {l : Look}
  {clock : Option Nat} {asked : Option Registry} {r : Registry} {now : Nat} {a : Attachment}

/-- Only the last look-up has a chance to find something. -/
theorem Missed.last {k : Nat} {l' : Look} {h : Handle} (hm : Missed id started giveUp looks)
    (hk : (looks ++ [l])[k]? = some l') (hl' : l'.registry.lookup? id = some h) :
    k = looks.length ∧ l' = l := by
  rcases getElem?_concat_back hk with hold | hnew
  · rw [hm.missed l' (List.mem_of_getElem? hold)] at hl'
    exact absurd hl' (by simp)
  · exact hnew

/-- One more look-up after which the call goes on. -/
theorem Missed.concat (hm : Missed id started giveUp looks)
    (hnext : started + 100 * looks.length ≤ l.time) (hl : l.registry.lookup? id = none)
    (htime : l.time < giveUp) : Missed id started giveUp (looks ++ [l]) where
  named := hm.named
  spaced k l' hk := by
    rcases getElem?_concat_back hk with hold | ⟨rfl, rfl⟩
    · exact hm.spaced k l' hold
    · exact hnext
  early l' hmem := by
    rcases List.mem_append.mp hmem with hold | hnew
    · exact hm.early l' hold
    · rw [List.mem_singleton.mp hnew]
      exact htime
  missed l' hmem := by
    rcases List.mem_append.mp hmem with hold | hnew
    · exact hm.missed l' hold
    · rw [List.mem_singleton.mp hnew]
      exact hl

/-- There are few of them: the last one is in the grace period. -/
theorem Missed.few (hm : Missed id started giveUp looks) {grace : Nat}
    (hgive : giveUp = started + grace) : looks.length ≤ (grace + 99) / 100 := by
  rcases Nat.eq_zero_or_pos looks.length with hnone | hsome
  · omega
  · -- each is 100 ms behind the one before it, and even the last is in time
    have hlt : looks.length - 1 < looks.length := by omega
    obtain ⟨l, hl⟩ : ∃ l, looks[looks.length - 1]? = some l := ⟨_, List.getElem?_eq_getElem hlt⟩
    have hspaced := hm.spaced _ l hl
    have hearly := hm.early l (List.mem_of_getElem? hl)
    omega

/-- The call at its beginning. -/
theorem inv_of (text : String) (grace now : Nat) : (of text grace now).Inv [] none none := by
  unfold Inv of
  rw [Attachment.start_eq]
  by_cases hid : Text.trim text = ""
  · rw [if_pos hid]
    exact .missing hid
  · rw [if_neg hid]
    have hm : Missed (Text.trim text) now (now + grace) [] :=
      ⟨hid, fun k l hl => absurd hl (by simp), fun l hl => absurd hl (by simp),
        fun l hl => absurd hl (by simp)⟩
    exact .looking hm rfl rfl (Nat.le_refl _) (Or.inl ⟨rfl, rfl⟩)

/-- **Preserved by a look-up.** -/
theorem Stands.look (hs : Stands id started giveUp (.looking a) looks clock asked)
    (hdue : a.next ≤ now) :
    Stands id started giveUp
      (match r.lookup? a.id with
        | some h => .claiming a h
        | none => .judging a)
      (looks ++ [{ time := now, registry := r }]) clock asked := by
  cases hs with
  | looking hm hid hgive hnext _ =>
      subst hid
      cases hl : r.lookup? a.id with
      | some h => exact .claiming hm rfl (Nat.le_trans hnext hdue) hl
      | none => exact .judging hm rfl hgive (Nat.le_trans hnext hdue) hl

/-- The place of an entry is given away where it is free. -/
theorem take?_isSome {h : Handle} : (r.take? h).isSome = true ↔ r.Free h := by
  unfold Registry.take? Registry.Free
  cases he : r.entry? h with
  | none => simp
  | some e =>
      rw [Option.bind_some]
      unfold Entry.take?
      cases hr : e.reader <;> simp [hr]

/-- **Preserved by the claim**, which is the end of the call. -/
theorem Stands.claim {h : Handle}
    (hs : Stands id started giveUp (.claiming a h) looks clock asked) :
    Stands id started giveUp (.after (a.claim h r)) looks clock (some r) := by
  cases hs with
  | claiming hm hid hnext hl =>
      subst hid
      unfold Attachment.claim
      cases ht : r.take? h with
      | some r' => exact .found hm hnext hl (take?_isSome.mp (by rw [ht]; rfl))
      | none =>
          refine .taken hm hnext hl fun hfree => ?_
          rw [← take?_isSome, ht] at hfree
          exact absurd hfree (by simp)

/-- **Preserved by the look at the clock.** -/
theorem Stands.judge (hs : Stands id started giveUp (.judging a) looks clock asked)
    (hpast : ∀ l ∈ looks, l.time ≤ now) :
    Stands id started giveUp
      (if a.isOver now then .failed (.unknownSession a.id) else .resting a) looks (some now)
      asked := by
  cases hs with
  | judging hm hid hgive hnext hl =>
      subst hid hgive
      have htime := hpast _ (List.mem_append_right _ (List.mem_singleton_self _))
      unfold Attachment.isOver
      by_cases hover : a.giveUp ≤ now
      · rw [if_pos (by simpa using hover)]
        exact .unknown hm hnext hl htime hover
      · rw [if_neg (by simpa using hover)]
        exact .resting (hm.concat hnext hl (by omega)) rfl rfl

/-- **Preserved by the rest**, until which the last look-up lies back. -/
theorem Stands.rest (hs : Stands id started giveUp (.resting a) looks clock asked)
    (hpast : ∀ l ∈ looks, l.time ≤ now) :
    Stands id started giveUp (.looking (a.rest now)) looks clock asked := by
  cases hs with
  | @resting _ looks l _ _ hm hid hgive =>
      have hlast : (looks ++ [l])[looks.length]? = some l := List.getElem?_concat_length
      have hspaced := hm.spaced _ l hlast
      have htime := hpast l (List.mem_append_right _ (List.mem_singleton_self _))
      -- the rest begins when it is asked for, which is behind the look-up
      refine .looking hm hid hgive ?_ (Or.inr ⟨l, List.getLast?_concat, ?_⟩)
      · show started + 100 * (looks ++ [l]).length ≤ now + 100
        rw [List.length_append, List.length_singleton]
        omega
      · show l.time + 100 ≤ now + 100
        omega

/-- **The look-ups are few.** -/
theorem Stands.few {grace : Nat} (hs : Stands id started giveUp state looks clock asked)
    (hgive : giveUp = started + grace) : looks.length ≤ (grace + 99) / 100 + 1 := by
  cases hs with
  | missing _ => exact Nat.zero_le _
  | looking hm _ _ _ _ =>
      have hfew := hm.few hgive
      omega
  | resting hm _ _ =>
      have hfew := hm.few hgive
      omega
  | claiming hm _ _ _ | judging hm _ _ _ _ | found hm _ _ _ | taken hm _ _ _
  | unknown hm _ _ _ _ =>
      -- the last look-up may come at any time
      have hfew := hm.few hgive
      rw [List.length_append, List.length_singleton]
      omega

theorem Stands.missing_iff (hs : Stands id started giveUp state looks clock asked) :
    id = "" ↔ state = .failed .missingSessionId := by
  cases hs with
  | missing hid => exact iff_of_true hid rfl
  | looking hm _ _ _ _ | resting hm _ _ | claiming hm _ _ _ | judging hm _ _ _ _ | found hm _ _ _
  | taken hm _ _ _ | unknown hm _ _ _ _ => exact iff_of_false hm.named (by simp)

theorem Stands.unseen (hs : Stands id started giveUp state looks clock asked) (hid : id = "") :
    looks = [] := by
  cases hs with
  | missing _ => rfl
  | looking hm _ _ _ _ | resting hm _ _ | claiming hm _ _ _ | judging hm _ _ _ _ | found hm _ _ _
  | taken hm _ _ _ | unknown hm _ _ _ _ => exact absurd hid hm.named

theorem Stands.paced (hs : Stands id started giveUp (.looking a) looks clock asked) :
    looks = [] ∧ a.next = started
      ∨ ∃ l, looks.getLast? = some l ∧ l.time < giveUp ∧ l.time + 100 ≤ a.next := by
  cases hs with
  | looking hm _ _ _ hpace =>
      exact hpace.imp_right fun ⟨l, hl, hnext⟩ => ⟨l, hl, hm.early l (List.mem_of_getLast? hl), hnext⟩

theorem Stands.attempt (hs : Stands id started giveUp (.judging a) looks clock asked) :
    a.id = id ∧ a.giveUp = giveUp := by
  cases hs with
  | judging _ hid hgive _ _ => exact ⟨hid, hgive⟩

/-- The call gives up on the clock that it read after its last look-up. -/
theorem Stands.unknown_of {name : String}
    (hs : Stands id started giveUp (.failed (.unknownSession name)) looks clock asked) :
    name = id ∧ ∃ l c, looks.getLast? = some l ∧ l.registry.lookup? id = none ∧ clock = some c
      ∧ l.time ≤ c ∧ giveUp ≤ c := by
  cases hs with
  | unknown _ _ hl htime hlate =>
      exact ⟨rfl, _, _, List.getLast?_concat, hl, rfl, htime, hlate⟩

/-- **A look-up that found an entry was the last one**, and the call ends with that entry. -/
theorem Stands.hits {k : Nat} {l : Look} {h : Handle}
    (hs : Stands id started giveUp state looks clock asked) (hk : looks[k]? = some l)
    (hl : l.registry.lookup? id = some h) :
    looks.length = k + 1 ∧ ((∃ a, state = .claiming a h)
      ∨ ∃ r, asked = some r ∧ (r.Free h ∧ state = .found { handle := h }
        ∨ ¬ r.Free h ∧ state = .failed (.alreadyAttached id))) := by
  have hlength : ∀ {xs : List Look} {x : Look}, k = xs.length → (xs ++ [x]).length = k + 1 :=
    fun hk => by rw [List.length_append, List.length_singleton, hk]
  cases hs with
  | missing _ => exact absurd hk (by simp)
  | looking hm _ _ _ _ =>
      rw [hm.missed l (List.mem_of_getElem? hk)] at hl
      exact absurd hl (by simp)
  | resting hm _ _ =>
      rw [hm.missed l (List.mem_of_getElem? hk)] at hl
      exact absurd hl (by simp)
  | claiming hm _ _ hl' =>
      obtain ⟨hlast, rfl⟩ := hm.last hk hl
      cases hl.symm.trans hl'
      exact ⟨hlength hlast, Or.inl ⟨_, rfl⟩⟩
  | judging hm _ _ _ hl' =>
      obtain ⟨-, rfl⟩ := hm.last hk hl
      exact absurd (hl.symm.trans hl') (by simp)
  | found hm _ hl' hfree =>
      obtain ⟨hlast, rfl⟩ := hm.last hk hl
      cases hl.symm.trans hl'
      exact ⟨hlength hlast, Or.inr ⟨_, rfl, Or.inl ⟨hfree, rfl⟩⟩⟩
  | taken hm _ hl' hfree =>
      obtain ⟨hlast, rfl⟩ := hm.last hk hl
      cases hl.symm.trans hl'
      exact ⟨hlength hlast, Or.inr ⟨_, rfl, Or.inr ⟨hfree, rfl⟩⟩⟩
  | unknown hm _ hl' _ _ =>
      obtain ⟨-, rfl⟩ := hm.last hk hl
      exact absurd (hl.symm.trans hl') (by simp)

end Search

/-! ## The call and the sessions that come -/

namespace Lobby

variable {t : Lobby}

/-- **The invariant of a call among all others.** -/
structure Inv (t : Lobby) : Prop where
  past : ∀ l ∈ t.looks, l.time ≤ t.hub.now
  read : ∀ c, t.clock = some c → c ≤ t.hub.now
  uncalled : t.search = none → t.looks = [] ∧ t.clock = none ∧ t.asked = none
  search : ∀ s, t.search = some s → s.Inv t.looks t.clock t.asked
  /-- A session has the id that was asked for, without the blanks around it. -/
  given : ∀ o ∈ t.openings, ∀ text, o.given = some text → Text.trim text ≠ "" →
    o.session = Text.trim text
  opened : ∀ o ∈ t.openings, o.time ≤ t.hub.now ∧ t.hub.registry.Names o.handle o.session
    ∧ o.looks ≤ t.looks.length
  /-- The look-ups that were made before a session was opened, and those that were made after. -/
  before : ∀ o ∈ t.openings, ∀ (k : Nat) l, t.looks[k]? = some l → k < o.looks → l.time ≤ o.time
  behind : ∀ o ∈ t.openings, ∀ (k : Nat) l, t.looks[k]? = some l → o.looks ≤ k →
    o.time ≤ l.time ∧ l.registry.Names o.handle o.session

theorem inv_empty : Inv {} where
  past := fun l hl => absurd hl (by simp)
  read := fun c hc => absurd hc (by simp)
  uncalled := fun _ => ⟨rfl, rfl, rfl⟩
  search := fun s hs => absurd hs (by simp)
  given := fun o ho => absurd ho (by simp)
  opened := fun o ho => absurd ho (by simp)
  before := fun o ho => absurd ho (by simp)
  behind := fun o ho => absurd ho (by simp)

/-- What the others do around the call. -/
theorem Inv.around (hi : t.Inv) {hub : Hub} (hnow : t.hub.now ≤ hub.now)
    (hnames : ∀ h id, t.hub.registry.Names h id → hub.registry.Names h id) :
    Inv { t with hub } where
  past := fun l hl => Nat.le_trans (hi.past l hl) hnow
  read := fun c hc => Nat.le_trans (hi.read c hc) hnow
  uncalled := hi.uncalled
  search := hi.search
  given := hi.given
  opened := fun o ho =>
    have ⟨htime, hname, hlooks⟩ := hi.opened o ho
    ⟨Nat.le_trans htime hnow, hnames _ _ hname, hlooks⟩
  before := hi.before
  behind := hi.behind

/-- What the call does without looking its session up. -/
theorem Inv.called (hi : t.Inv) {s : Search} {clock : Option Nat} {asked : Option Registry}
    (hs : s.Inv t.looks clock asked) (hclock : ∀ c, clock = some c → c ≤ t.hub.now) :
    Inv { t with search := some s, clock, asked } where
  past := hi.past
  read := hclock
  uncalled := fun h => absurd h (by simp)
  search := fun s' hs' => by
    cases hs'
    exact hs
  given := hi.given
  opened := hi.opened
  before := hi.before
  behind := hi.behind

/-- **A session is opened.** -/
theorem Inv.arrived (hi : t.Inv) {table : ExtractorTable} {settings : SessionSettings}
    {id : Option String} {files : List Submission} {p : Prepared} {hub : Hub}
    (ho : Prepared.open? table settings id files t.hub = (.ok p, hub)) :
    Inv { t with hub, openings := t.openings ++ [t.opening id p] } := by
  obtain ⟨hfree, hhandle, hreg⟩ := Prepared.open?_entry ho
  have hnow : hub.now = t.hub.now := (Prepared.open?_hub ho).1
  have hb : t.hub.registry.Became (some t.hub.registry.nextEpoch) none hub.registry := by
    rw [hreg]
    exact .opened p.id hfree
  have hold : Inv { t with hub } :=
    hi.around (Nat.le_of_eq hnow.symm) fun _ _ hn => hn.became hb
  have hnew : hub.registry.Names p.handle p.id := by
    rw [hreg, hhandle]
    exact ⟨_, Registry.entry?_opened_new _ _, rfl⟩
  have hmem : ∀ {o}, o ∈ t.openings ++ [t.opening id p] → o ∈ t.openings ∨ o = t.opening id p :=
    fun ho => (List.mem_append.mp ho).imp_right List.mem_singleton.mp
  refine { hold with given := ?_, opened := ?_, before := ?_, behind := ?_ }
  · intro o ho' text htext hsome
    rcases hmem ho' with hin | rfl
    · exact hi.given o hin text htext hsome
    · exact Prepared.open?_id ho htext hsome
  · intro o ho'
    rcases hmem ho' with hin | rfl
    · exact hold.opened o hin
    · exact ⟨Nat.le_of_eq hnow.symm, hnew, Nat.le_refl _⟩
  · intro o ho' k l hl hk
    rcases hmem ho' with hin | rfl
    · exact hi.before o hin k l hl hk
    · exact hi.past l (List.mem_of_getElem? hl)
  · intro o ho' k l hl hk
    rcases hmem ho' with hin | rfl
    · exact hi.behind o hin k l hl hk
    · -- there was no look-up since
      have hlt := (List.getElem?_eq_some_iff.mp hl).1
      exact absurd hlt (Nat.not_lt.mpr hk)

/-- **The call looks its session up.** -/
theorem Inv.looked (hi : t.Inv) {s : Search}
    (hs : s.Inv (t.looks ++ [{ time := t.hub.now, registry := t.hub.registry }]) t.clock t.asked) :
    Inv { t with
      search := some s
      looks := t.looks ++ [{ time := t.hub.now, registry := t.hub.registry }] } := by
  refine {
    past := ?_
    read := hi.read
    uncalled := fun h => absurd h (by simp)
    search := ?_
    given := hi.given
    opened := ?_
    before := ?_
    behind := ?_ }
  · intro l hl
    rcases List.mem_append.mp hl with hin | hnew
    · exact hi.past l hin
    · rw [List.mem_singleton.mp hnew]
  · intro s' hs'
    cases hs'
    exact hs
  · intro o ho
    obtain ⟨htime, hname, hlooks⟩ := hi.opened o ho
    refine ⟨htime, hname, ?_⟩
    rw [List.length_append]
    exact Nat.le_trans hlooks (Nat.le_add_right _ _)
  · intro o ho k l hl hk
    rcases getElem?_concat_back hl with hin | ⟨rfl, rfl⟩
    · exact hi.before o ho k l hin hk
    · exact absurd (hi.opened o ho).2.2 (Nat.not_le.mpr hk)
  · intro o ho k l hl hk
    rcases getElem?_concat_back hl with hin | ⟨rfl, rfl⟩
    · exact hi.behind o ho k l hin hk
    · exact ⟨(hi.opened o ho).1, (hi.opened o ho).2.1⟩

/-- **Preserved by every step of the call.** -/
theorem inv_go (hi : t.Inv) {s : Search} (hs : t.search = some s) : (t.go s).Inv := by
  have hstands : Search.Stands (Text.trim s.text) s.started (s.started + s.grace) s.state t.looks
      t.clock t.asked := hi.search s hs
  unfold go
  cases hstate : s.state with
  | looking a =>
      rw [hstate] at hstands
      dsimp only
      unfold Attachment.look?
      by_cases hnext : t.hub.now < a.next
      · rw [if_pos hnext]
        exact hi
      · rw [if_neg hnext]
        exact hi.looked (hstands.look (by omega))
  | claiming a h =>
      rw [hstate] at hstands
      dsimp only
      refine (hi.called (s := { s with state := .after (a.claim h t.hub.registry) })
        hstands.claim hi.read).around (Nat.le_refl _) fun k id hn => ?_
      unfold Attachment.claim
      cases ht : t.hub.registry.take? h with
      | some r => exact hn.became (Registry.take?_became ht)
      | none => exact hn
  | judging a =>
      rw [hstate] at hstands
      exact hi.called
        (s := { s with state :=
          (if a.isOver t.hub.now then .failed (.unknownSession a.id) else .resting a) })
        (hstands.judge hi.past) fun c hc => Nat.le_of_eq (Option.some.inj hc).symm
  | resting a =>
      rw [hstate] at hstands
      exact hi.called (s := { s with state := .looking (a.rest t.hub.now) }) (hstands.rest hi.past)
        hi.read
  | found _ => exact hi
  | failed _ => exact hi

/-- **Preserved by every move.** -/
theorem inv_move (hi : t.Inv) (m : Move) : (t.move m).Inv := by
  cases m with
  | attach text grace =>
      dsimp only [move]
      split
      · rename_i hnone
        obtain ⟨hlooks, hclock, hasked⟩ := hi.uncalled hnone
        refine hi.called (s := .of text grace t.hub.now) ?_ hi.read
        rw [hlooks, hclock, hasked]
        exact Search.inv_of text grace t.hub.now
      · exact hi
  | go =>
      dsimp only [move]
      split
      · exact hi
      · rename_i s hs
        exact inv_go hi hs
  | prepare table settings id files =>
      dsimp only [move]
      split
      · rename_i p hub ho
        exact hi.arrived ho
      · rename_i e hub ho
        obtain ⟨hnow, hreg⟩ := Prepared.open?_hub ho
        exact hi.around (Nat.le_of_eq hnow.symm) fun k id hn => by
          rw [hreg ⟨e, rfl⟩]
          exact hn
  | ask c =>
      exact hi.around (Nat.le_refl _) fun _ _ hn => hn.became (Registry.call_became _ c)
  | unlist id => exact hi.around (Nat.le_refl _) fun _ _ hn => hn.unlist id
  | cancel h => exact hi.around (Nat.le_refl _) fun _ _ hn => hn.cancel h
  | wait ms => exact hi.around (Nat.le_add_right _ _) fun _ _ hn => hn
  | outside spools gates serial => exact hi.around (Nat.le_refl _) fun _ _ hn => hn

theorem inv_play (hi : t.Inv) (ms : List Move) : (t.play ms).Inv := by
  induction ms generalizing t with
  | nil => exact hi
  | cons m ms ih => exact ih (inv_move hi m)

/-- **What a call does to find its session.** -/
structure Finds (t : Lobby) (s : Search) : Prop where
  /-- Without an id there is nothing to look for, -/
  missing : Text.trim s.text = "" ↔ s.state = .failed .missingSessionId
  unseen : Text.trim s.text = "" → t.looks = []
  /-- and with one it is looked for a few times, -/
  few : t.looks.length ≤ (s.grace + 99) / 100 + 1
  /-- at once and then after rests of 100 ms, in the grace period, -/
  paced : ∀ a, s.state = .looking a → t.looks = [] ∧ a.next = s.started
    ∨ ∃ l, t.looks.getLast? = some l ∧ l.time < s.started + s.grace ∧ l.time + 100 ≤ a.next
  due : ∀ a, s.state = .looking a → a.next ≤ t.hub.now →
    (t.move .go).looks = t.looks ++ [{ time := t.hub.now, registry := t.hub.registry }]
  /-- until the clock says, after a look-up that found nothing, that the period is over. -/
  judged : ∀ a, s.state = .judging a → (t.move .go).search = some { s with state :=
    (if s.started + s.grace ≤ t.hub.now then .failed (.unknownSession (Text.trim s.text))
      else .resting a) }
  rested : ∀ a, s.state = .resting a →
    (t.move .go).search = some { s with state := .looking { a with next := t.hub.now + 100 } }
  unknown : ∀ id, s.state = .failed (.unknownSession id) → id = Text.trim s.text
    ∧ ∃ l c, t.looks.getLast? = some l ∧ l.registry.lookup? (Text.trim s.text) = none
      ∧ t.clock = some c ∧ l.time ≤ c ∧ s.started + s.grace ≤ c ∧ c ≤ t.hub.now
  /-- A session that was opened by then is looked up, if not the last look-up came before it, -/
  sought : ∀ o ∈ t.openings, ∀ id, s.state = .failed (.unknownSession id) →
    o.looks < t.looks.length ∨ ∃ l, t.looks.getLast? = some l ∧ l.time ≤ o.time
  /-- and if its id comes to the same and still names it at the next look-up, it is what the call
  asks for then, and what it finds if the reader's place was not taken before that. -/
  finds : ∀ o ∈ t.openings, ∀ text, o.given = some text → Text.trim text = Text.trim s.text →
    ∀ l, t.looks[o.looks]? = some l → o.time ≤ l.time
      ∧ l.registry.Names o.handle (Text.trim s.text)
      ∧ (l.registry.lookup? (Text.trim s.text) = some o.handle → t.looks.length = o.looks + 1
        ∧ ((∃ a, s.state = .claiming a o.handle)
          ∨ ∃ r, t.asked = some r ∧ (r.Free o.handle ∧ s.state = .found { handle := o.handle }
            ∨ ¬ r.Free o.handle ∧ s.state = .failed (.alreadyAttached (Text.trim s.text)))))

theorem Inv.finds (hi : t.Inv) {s : Search} (hs : t.search = some s) : t.Finds s := by
  have hstands : Search.Stands (Text.trim s.text) s.started (s.started + s.grace) s.state t.looks
      t.clock t.asked := hi.search s hs
  have hgo : t.move .go = t.go s := by
    dsimp only [move]
    rw [hs]
  refine {
    missing := hstands.missing_iff
    unseen := hstands.unseen
    few := hstands.few rfl
    paced := ?_
    due := ?_
    judged := ?_
    rested := ?_
    unknown := ?_
    sought := ?_
    finds := ?_ }
  · intro a ha
    rw [ha] at hstands
    exact hstands.paced
  · intro a ha hdue
    rw [hgo]
    unfold go Attachment.look?
    rw [ha]
    dsimp only
    rw [if_neg (Nat.not_lt.mpr hdue)]
  · intro a ha
    rw [ha] at hstands
    obtain ⟨hid, hgive⟩ := hstands.attempt
    rw [hgo]
    unfold go Attachment.isOver
    rw [ha]
    dsimp only
    rw [hid, hgive]
    simp only [decide_eq_true_eq]
  · intro a ha
    rw [hgo]
    unfold go Attachment.rest
    rw [ha]
    rfl
  · intro id hid
    rw [hid] at hstands
    obtain ⟨hname, l, c, hl, hnone, hc, htime, hlate⟩ := hstands.unknown_of
    exact ⟨hname, l, c, hl, hnone, hc, htime, hlate, hi.read c hc⟩
  · intro o ho id hid
    rw [hid] at hstands
    obtain ⟨_, l, _, hl, _⟩ := hstands.unknown_of
    refine (Nat.lt_or_ge o.looks t.looks.length).imp_right fun hge => ⟨l, hl, ?_⟩
    rw [List.getLast?_eq_getElem?] at hl
    have hlen := (List.getElem?_eq_some_iff.mp hl).1
    exact hi.before o ho _ l hl (by omega)
  · intro o ho text htext htrim l hl
    obtain ⟨htime, hnames⟩ := hi.behind o ho _ l hl (Nat.le_refl _)
    have hsome : Text.trim s.text ≠ "" := by
      intro hblank
      rw [hstands.unseen hblank] at hl
      exact absurd hl (by simp)
    have hid : o.session = Text.trim s.text :=
      (hi.given o ho text htext (by rw [htrim]; exact hsome)).trans htrim
    exact ⟨htime, hid ▸ hnames, fun hlook => hstands.hits hl hlook⟩

/-- **A call finds its session if that is there for a look-up**, and gives up only when the clock
says that it is time to. -/
theorem lobby_finds (ms : List Move) {s : Search} (hs : (play {} ms).search = some s) :
    Finds (play {} ms) s :=
  (inv_play inv_empty ms).finds hs

/-- A session that is opened at the end of the grace period, under another text of the same id,
while the clock jumps past the next look-up. -/
theorem lobby_finds_late :
    let f : Submission := { fileName := "a.txt", declared := none, size := 0, spool := 0 }
    let ms : List Move := [.attach " s" 150, .go, .go, .go, .wait 149,
      .prepare {} {} (some "s ") [f], .wait 1000, .go, .go]
    let s : Search :=
      { text := " s", grace := 150, started := 0, state := .found { handle := 0 } }
    (play {} ms).search = some s ∧ Finds (play {} ms) s := by
  intro f ms s
  have hs : (play {} ms).search = some s := rfl
  exact ⟨hs, lobby_finds ms hs⟩

/-- Not every session is found that is opened in time, is still open and has no reader. One is
opened after the last look-up, when the clock is about to pass the end of the grace period. Another
had a reader who took the place and left it, and the call is told that there is one. -/
theorem lobby_misses :
    let f : Submission := { fileName := "a.txt", declared := none, size := 0, spool := 0 }
    let late : List Move := [.attach "s" 150, .go, .go, .go, .wait 148, .go,
      .prepare {} {} (some "s") [f], .wait 2, .go]
    let left : List Move := [.prepare {} {} (some "s") [f], .ask (.take 0), .ask (.leave 0),
      .attach "s" 150, .go, .go]
    ((play {} late).search = some
        { text := "s", grace := 150, started := 0, state := .failed (.unknownSession "s") }
      ∧ (play {} late).looks.map Look.time = [0, 148]
      ∧ (play {} late).openings.map Opening.time = [148]
      ∧ (play {} late).hub.registry.lookup? "s" = some 0
      ∧ (play {} late).hub.registry.Free 0)
    ∧ (play {} left).search = some
        { text := "s", grace := 150, started := 0, state := .failed (.alreadyAttached "s") }
      ∧ (play {} left).looks.map (·.registry.lookup? "s") = [some 0]
      ∧ (play {} left).openings.map Opening.time = [0]
      ∧ ((play {} left).hub.registry.entry? 0).map Entry.reader = some .gone
      ∧ ((play {} left).hub.registry.entry? 0).map Entry.closed = some false := by
  refine ⟨⟨rfl, rfl, rfl, rfl, _, rfl, rfl⟩, rfl, rfl, rfl, rfl, rfl⟩

end Lobby
end Intake
