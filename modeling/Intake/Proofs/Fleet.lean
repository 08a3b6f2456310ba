import Intake.Proofs.Neighbours

/-!
# Sessions side by side

A fleet is any number of sessions and sinks around one registry, together with whoever closes
entries by their ids or through handles. Sessions are opened, given up before they run, or run;
ids are used again as soon as the registry has let them go. The order of all this is left
open. Only the sessions' relays send.

What holds of one session among all that goes on around it holds of each session of a fleet:
`Fleet.charted_play` says that what a member sees is a course of its own, in which everything
the others do is something that is asked of the registry from outside.
-/

namespace Intake

/-- A session of a fleet. -/
structure Member where
  /-- What the session was when it was opened. -/
  opened : Prepared
  stage : Stage
  /-- The events that were handed to its relay, in order. -/
  log : List Event := []
  /-- What its relay decided, in order. -/
  decided : List (Event × DeliveryOutcome) := []
  /-- The session was given up before it ran. -/
  gone : Bool := false

/-- A sink of a fleet. -/
structure Listener where
  sink : Sink
  dropped : Bool := false
  /-- What the sink's calls returned, in order. -/
  answers : List (Option Event) := []

namespace Listener

/-- What the sink is to the entry that it reads. -/
def outlet (l : Listener) : Outlet where
  sink := if l.dropped then none else some l.sink
  dropped := l.dropped
  answers := l.answers

/-- The events that were received. -/
def received (l : Listener) : List Event :=
  l.outlet.received

variable {l : Listener} {s : Sink} {registry registry' : Registry} {now : Nat}

/-- A sink that looks for its next event, as a move of the reader's side of its entry. -/
theorem outlet_receive {deadline : Nat} {a : Option Event} (hpresent : l.dropped = false)
    (hr : l.sink.receive? registry now deadline = some (a, s, registry')) :
    l.outlet.move l.sink.handle now registry (.receive deadline)
      = (({ l with sink := s, answers := l.answers ++ [a] } : Listener).outlet, registry') := by
  unfold outlet
  rw [hpresent]
  dsimp only [Outlet.move]
  rw [if_neg (by simp)]
  dsimp only
  rw [hr]
  rfl

/-- A sink that goes away, likewise. -/
theorem outlet_leave (hpresent : l.dropped = false) :
    l.outlet.move l.sink.handle now registry .drop
      = (({ l with dropped := true } : Listener).outlet, l.sink.drop registry) := by
  unfold outlet
  rw [hpresent]
  rfl

theorem outlet_sink (hs : l.outlet.sink = some s) : l.sink = s := by
  unfold outlet at hs
  dsimp only at hs
  split at hs
  · exact absurd hs (by simp)
  · exact Option.some.inj hs

end Listener

/-- Sessions and sinks around one registry. -/
structure Fleet where
  hub : Hub := {}
  /-- In the order in which they were opened. -/
  members : List Member := []
  listeners : List Listener := []

namespace Fleet

/-- The reader's side of an entry. -/
def outlet (f : Fleet) (h : Handle) : Outlet :=
  match f.listeners.find? (·.sink.handle == h) with
  | some l => l.outlet
  | none => {}

/-- What a member sees of the fleet. -/
def course (f : Fleet) (m : Member) : Course where
  handle := m.opened.handle
  hub := f.hub
  stage := m.stage
  log := m.log
  decided := m.decided
  outlet := f.outlet m.opened.handle

/-- The fleet after a member has made a move of its own. -/
def advance (f : Fleet) (i : Nat) (m : Member) (mv : Course.Move) : Fleet :=
  let c := (f.course m).move mv
  { f with
    hub := c.hub
    members := f.members.set i { m with stage := c.stage, log := c.log, decided := c.decided } }

/-- The fleet with one more sink. -/
def join (f : Fleet) (s : Sink) (registry : Registry) : Fleet :=
  { f with hub := { f.hub with registry }, listeners := f.listeners ++ [{ sink := s }] }

/-- The fleet after something has become of a sink. -/
def turn (f : Fleet) (k : Nat) (l : Listener) (registry : Registry) : Fleet :=
  { f with hub := { f.hub with registry }, listeners := f.listeners.set k l }

/-- What can happen next. -/
inductive Move where
  /-- A session is opened. -/
  | prepare (table : ExtractorTable) (settings : SessionSettings) (id : Option String)
      (files : List Submission)
  /-- A session is given up before it runs. -/
  | discard (i : Nat)
  /-- A session makes a move of its own. -/
  | session (i : Nat) (m : Course.Move)
  /-- A sink looks its session up. -/
  | seek (a : Attachment)
  /-- A sink attaches to an entry that was looked up some time ago. -/
  | attach (h : Handle)
  /-- A sink looks for its next event. -/
  | receive (k deadline : Nat)
  /-- A sink goes away. -/
  | leave (k : Nat)
  | wait (ms : Nat)
  /-- Somebody closes the entry of an id. -/
  | close (id : String)
  /-- Somebody closes an entry through a handle of whatever age. -/
  | closeEntry (h : Handle)
  /-- Others use the spools and take ids, and gates open and close. -/
  | outside (spools : Spools) (gates : List String) (serial : Nat)

/-- The fleet after a move. A move that cannot be made changes nothing. -/
def move (f : Fleet) : Move → Fleet
  | .prepare table settings id files =>
    match Prepared.open? table settings id files f.hub with
    | (.ok p, hub) =>
      { f with hub, members := f.members ++ [{ opened := p, stage := .prepared p }] }
    | (.error _, hub) => { f with hub }
  | .discard i =>
    match f.members[i]? with
    | none => f
    | some m =>
      match m.gone, m.stage with
      | false, .prepared p =>
        { f with hub := p.discard f.hub, members := f.members.set i { m with gone := true } }
      | _, _ => f
  | .session i mv =>
    match f.members[i]? with
    | none => f
    | some m => if mv.isOwn && !m.gone then f.advance i m mv else f
  | .seek a =>
    match a.step? f.hub.registry f.hub.now with
    | some (.attached s registry) => f.join s registry
    | _ => f
  | .attach h =>
    match f.hub.registry.take? h with
    | some registry => f.join { handle := h } registry
    | none => f
  | .receive k deadline =>
    match f.listeners[k]? with
    | none => f
    | some l =>
      if l.dropped then f
      else
        match l.sink.receive? f.hub.registry f.hub.now deadline with
        | some (a, s, registry) =>
          f.turn k { l with sink := s, answers := l.answers ++ [a] } registry
        | none => f
  | .leave k =>
    match f.listeners[k]? with
    | none => f
    | some l =>
      if l.dropped then f else f.turn k { l with dropped := true } (l.sink.drop f.hub.registry)
  | .wait ms => { f with hub := { f.hub with now := f.hub.now + ms } }
  | .close id => { f with hub := { f.hub with registry := (f.hub.registry.close id).2 } }
  | .closeEntry h => { f with hub := { f.hub with registry := (f.hub.registry.closeEntry h).2 } }
  | .outside spools gates serial => { f with hub := { f.hub with spools, gates, serial } }

/-- The fleet after some moves. -/
def play (f : Fleet) (ms : List Move) : Fleet :=
  ms.foldl move f

theorem play_append (f : Fleet) (ms ms' : List Move) : f.play (ms ++ ms') = (f.play ms).play ms' :=
  List.foldl_append

/-! ## Sinks and the entries that they read -/

/-- The elements of a list are found by keys that do not repeat. -/
theorem find?_key {α : Type} {key : α → Handle} {l : List α} (hn : (l.map key).Nodup) {x : α}
    (hx : x ∈ l) : l.find? (key · == key x) = some x := by
  induction l with
  | nil => exact absurd hx (by simp)
  | cons y ys ih =>
      rw [List.map_cons, List.nodup_cons] at hn
      rcases List.mem_cons.mp hx with heq | hx
      · rw [heq]
        simp
      · have hne : key y ≠ key x := fun he => hn.1 (he ▸ List.mem_map_of_mem hx)
        rw [List.find?_cons_of_neg (by simpa using hne)]
        exact ih hn.2 hx

variable {f : Fleet} {l l' : Listener} {s : Sink} {registry : Registry} {h k : Handle}

theorem outlet_of_mem (hn : (f.listeners.map (·.sink.handle)).Nodup) (hl : l ∈ f.listeners) :
    f.outlet l.sink.handle = l.outlet := by
  unfold outlet
  rw [find?_key hn hl]

theorem outlet_of_unread (hno : ∀ l ∈ f.listeners, l.sink.handle ≠ h) : f.outlet h = {} := by
  have hnone : f.listeners.find? (·.sink.handle == h) = none := by
    rw [List.find?_eq_none]
    intro l hl
    simpa using hno l hl
  unfold outlet
  rw [hnone]

theorem outlet_join_ne (hk : k ≠ s.handle) : (f.join s registry).outlet k = f.outlet k := by
  have hfind : (f.listeners ++ [({ sink := s } : Listener)]).find? (·.sink.handle == k)
      = f.listeners.find? (·.sink.handle == k) := by
    rw [List.find?_append, List.find?_cons_of_neg (by simpa using Ne.symm hk), List.find?_nil,
      Option.or_none]
  unfold outlet join
  dsimp only
  rw [hfind]

/-- The sinks after something has become of one of them read the same entries. -/
theorem handles_turn {i : Nat} (hi : f.listeners[i]? = some l)
    (hl : l'.sink.handle = l.sink.handle) :
    (f.turn i l' registry).listeners.map (·.sink.handle) = f.listeners.map (·.sink.handle) := by
  have hat : (f.listeners.map (·.sink.handle))[i]? = some l.sink.handle := by
    rw [List.getElem?_map, hi]
    rfl
  show (f.listeners.set i l').map (·.sink.handle) = _
  rw [List.map_set, hl]
  exact set_self hat

theorem outlet_turn_self {i : Nat} (hn : (f.listeners.map (·.sink.handle)).Nodup)
    (hi : f.listeners[i]? = some l) (hl : l'.sink.handle = l.sink.handle) :
    (f.turn i l' registry).outlet l.sink.handle = l'.outlet := by
  have hlt : i < f.listeners.length := (List.getElem?_eq_some_iff.mp hi).1
  rw [← hl]
  refine outlet_of_mem ?_ (List.mem_set hlt l')
  rw [handles_turn hi hl]
  exact hn

theorem outlet_turn_ne {i : Nat} (hn : (f.listeners.map (·.sink.handle)).Nodup)
    (hi : f.listeners[i]? = some l) (hl : l'.sink.handle = l.sink.handle)
    (hk : k ≠ l.sink.handle) : (f.turn i l' registry).outlet k = f.outlet k := by
  have hn' : ((f.turn i l' registry).listeners.map (·.sink.handle)).Nodup := by
    rw [handles_turn hi hl]
    exact hn
  by_cases hread : ∃ j ∈ f.listeners, j.sink.handle = k
  · -- whoever reads the entry is another sink, and still there
    obtain ⟨j, hj, rfl⟩ := hread
    obtain ⟨n, hjn⟩ := List.mem_iff_getElem?.mp hj
    have hin : i ≠ n := by
      rintro rfl
      rw [hi] at hjn
      cases hjn
      exact hk rfl
    have hj' : j ∈ (f.turn i l' registry).listeners := by
      refine List.mem_iff_getElem?.mpr ⟨n, ?_⟩
      show (f.listeners.set i l')[n]? = some j
      rw [List.getElem?_set_ne hin]
      exact hjn
    rw [outlet_of_mem hn' hj', outlet_of_mem hn hj]
  · have hno : ∀ j ∈ f.listeners, j.sink.handle ≠ k := fun j hj he => hread ⟨j, hj, he⟩
    rw [outlet_of_unread hno]
    refine outlet_of_unread fun j hj => ?_
    rcases List.mem_or_eq_of_mem_set hj with hold | hnew
    · exact hno j hold
    · rw [hnew, hl]
      exact Ne.symm hk

/-! ## The invariant -/

/-- **The invariant of a fleet.** -/
structure Charted (f : Fleet) : Prop where
  sound : f.hub.registry.Sound
  /-- The members have the entries in the order in which they were opened. -/
  places : ∀ (i : Nat) (m : Member), f.members[i]? = some m → m.opened.handle = i
  /-- There are no other entries. -/
  entries : f.hub.registry.entries.length = f.members.length
  named : ∀ (i : Nat) (m : Member), f.members[i]? = some m →
    ∃ e, f.hub.registry.entry? i = some e ∧ e.session = m.opened.id
  /-- What a member sees of the fleet is the course of a session that was opened. -/
  courses : ∀ m ∈ f.members, (f.course m).Opened m.opened
  /-- No two sinks read one entry. -/
  readers : (f.listeners.map (·.sink.handle)).Nodup
  attached : ∀ l ∈ f.listeners, l.sink.handle < f.members.length

theorem charted_empty : Charted {} where
  sound := Registry.sound_empty
  places := fun i m hi => absurd hi (by simp)
  entries := rfl
  named := fun i m hi => absurd hi (by simp)
  courses := fun m hm => absurd hm (by simp)
  readers := List.nodup_nil
  attached := fun l hl => absurd hl (by simp)

/-- With calls that open no entry, the entries remain the members'. -/
theorem Charted.entries_calls (hf : f.Charted) {cs : List Registry.Call}
    (hcs : ∀ x ∈ cs, ∀ r : Registry, r.opens x = none) :
    (f.hub.registry.calls cs).Sound
      ∧ (f.hub.registry.calls cs).entries.length = f.members.length
      ∧ ∀ (i : Nat) (m : Member), f.members[i]? = some m →
        ∃ e, Registry.entry? (f.hub.registry.calls cs) i = some e ∧ e.session = m.opened.id := by
  refine ⟨Registry.sound_calls hf.sound cs, ?_, ?_⟩
  · rw [Registry.length_calls hcs]
    exact hf.entries
  · intro i m hi
    obtain ⟨e, he, hid⟩ := hf.named i m hi
    obtain ⟨e', he', hsame⟩ := Registry.session_calls cs he
    exact ⟨e', he', hsame.trans hid⟩

/-- Somebody closes something, or nothing happens but that time passes. -/
theorem Charted.around (hf : f.Charted) {hub : Hub} {cs : List Registry.Call}
    (hnow : f.hub.now ≤ hub.now) (hcs : ∀ x ∈ cs, x.isClosing = true)
    (hreg : hub.registry = f.hub.registry.calls cs) : Charted { f with hub } := by
  obtain ⟨hsound, hentries, hnamed⟩ :=
    hf.entries_calls fun x hx r => Registry.opens_of_isClosing r (hcs x hx)
  rw [← hreg] at hsound hentries hnamed
  have hcourses : ∀ m ∈ f.members, Course.Opened m.opened { f.course m with hub } := fun m hm =>
    (hf.courses m hm).beside hnow (fun x hx => Registry.Call.spares_of_isClosing (hcs x hx) _) hreg
  exact ⟨hsound, hf.places, hentries, hnamed, hcourses, hf.readers, hf.attached⟩

theorem member_set {i j : Nat} {ms : List Member} {m m' x : Member} (hi : ms[i]? = some m)
    (hx : (ms.set i m')[j]? = some x) : j = i ∧ x = m' ∨ j ≠ i ∧ ms[j]? = some x := by
  by_cases hj : i = j
  · subst hj
    rw [List.getElem?_set_self (List.getElem?_eq_some_iff.mp hi).1] at hx
    exact Or.inl ⟨rfl, (Option.some.inj hx).symm⟩
  · rw [List.getElem?_set_ne hj] at hx
    exact Or.inr ⟨Ne.symm hj, hx⟩

/-- That a member was given up shows in nothing that it sees. -/
theorem Charted.marked (hf : f.Charted) {i : Nat} {m : Member} (hi : f.members[i]? = some m) :
    Charted { f with members := f.members.set i { m with gone := true } } where
  sound := hf.sound
  places := by
    intro j x hx
    rcases member_set hi hx with ⟨rfl, rfl⟩ | ⟨_, hx⟩
    · exact hf.places j m hi
    · exact hf.places j x hx
  entries := hf.entries.trans (List.length_set).symm
  named := by
    intro j x hx
    rcases member_set hi hx with ⟨rfl, rfl⟩ | ⟨_, hx⟩
    · exact hf.named j m hi
    · exact hf.named j x hx
  courses := by
    intro x hx
    rcases List.mem_or_eq_of_mem_set hx with hold | rfl
    · exact hf.courses x hold
    · exact hf.courses m (List.mem_of_getElem? hi)
  readers := hf.readers
  attached := by
    intro l hl
    show l.sink.handle < (f.members.set i _).length
    rw [List.length_set]
    exact hf.attached l hl

/-- **One more session.** It gets an entry that nobody has had before. -/
theorem Charted.opened (hf : f.Charted) {table : ExtractorTable} {settings : SessionSettings}
    {id : Option String} {files : List Submission} {p : Prepared} {hub : Hub}
    (ho : Prepared.open? table settings id files f.hub = (.ok p, hub)) :
    Charted { f with hub, members := f.members ++ [{ opened := p, stage := .prepared p }] } := by
  obtain ⟨hfree, hhandle, hreg⟩ := Prepared.open?_entry ho
  have hplace : p.handle = f.members.length := hhandle.trans hf.entries
  -- the members are the old ones and the new one
  have hmember : ∀ (i : Nat) (x : Member),
      (f.members ++ [{ opened := p, stage := .prepared p }])[i]? = some x →
      f.members[i]? = some x
        ∨ i = f.members.length ∧ x = { opened := p, stage := .prepared p } := by
    intro i x hx
    rcases Nat.lt_or_ge i f.members.length with hlt | hge
    · left
      rw [List.getElem?_append_left hlt] at hx
      exact hx
    · right
      have hlt := (List.getElem?_eq_some_iff.mp hx).1
      rw [List.length_append, List.length_singleton] at hlt
      have hi : i = f.members.length := by omega
      subst hi
      rw [List.getElem?_concat_length] at hx
      exact ⟨rfl, (Option.some.inj hx).symm⟩
  -- for them the registry was asked to open an entry
  have hcall : hub.registry = f.hub.registry.calls [.openEntry p.id] := by
    rw [Registry.calls_cons, Registry.calls_nil]
    dsimp only [Registry.call]
    rw [Registry.open?_eq, hfree, if_neg (by simp)]
    exact hreg
  refine ⟨?_, ?_, ?_, ?_, ?_, hf.readers, ?_⟩
  · show hub.registry.Sound
    rw [hreg]
    exact Registry.opened_sound hf.sound hfree
  · intro i x hx
    rcases hmember i x hx with hold | ⟨rfl, rfl⟩
    · exact hf.places i x hold
    · exact hplace
  · show hub.registry.entries.length = (f.members ++ [_]).length
    rw [hreg, List.length_append, List.length_singleton, ← hf.entries]
    exact List.length_append
  · intro i x hx
    show ∃ e, hub.registry.entry? i = some e ∧ e.session = x.opened.id
    rw [hreg]
    rcases hmember i x hx with hold | ⟨rfl, rfl⟩
    · obtain ⟨e, he, hid⟩ := hf.named i x hold
      exact ⟨e, Registry.entry?_opened_old he, hid⟩
    · rw [← hf.entries]
      exact ⟨_, Registry.entry?_opened_new _ _, rfl⟩
  · intro x hx
    rcases List.mem_append.mp hx with hold | hnew
    · exact (hf.courses x hold).beside (Nat.le_of_eq (Prepared.open?_hub ho).1.symm)
        (List.forall_mem_singleton.mpr rfl) hcall
    · rw [List.mem_singleton.mp hnew]
      -- no sink reads an entry that was not there
      have hunread : f.outlet p.handle = {} := by
        refine outlet_of_unread fun l hl he => ?_
        exact absurd (he.trans hplace) (Nat.ne_of_lt (hf.attached l hl))
      refine ⟨table, settings, id, files, f.hub, hub, [], ho, ?_⟩
      show ({ handle := p.handle, hub, stage := .prepared p, outlet := f.outlet p.handle } : Course)
        = _
      rw [hunread]
      rfl
  · intro l hl
    show l.sink.handle < (f.members ++ [_]).length
    rw [List.length_append]
    exact Nat.lt_add_right _ (hf.attached l hl)

/-- **A member makes a move of its own.** -/
theorem Charted.advanced (hf : f.Charted) {i : Nat} {m : Member} {mv : Course.Move}
    (hi : f.members[i]? = some m) (hmv : mv.isOwn = true) : Charted (f.advance i m mv) := by
  have hm := hf.courses m (List.mem_of_getElem? hi)
  obtain ⟨hhandle, houtlet, hnow, cs, hcs, hreg⟩ := Course.move_own hmv hm.handles
  have hplace : m.opened.handle = i := hf.places i m hi
  obtain ⟨hsound, hentries, hnamed⟩ :=
    hf.entries_calls fun x hx r => Registry.opens_of_through r (hcs x hx)
  have hsame : f.hub.registry.calls cs = (f.advance i m mv).hub.registry := hreg.symm
  rw [hsame] at hsound hentries hnamed
  refine ⟨hsound, ?_, hentries.trans List.length_set.symm, ?_, ?_, hf.readers, ?_⟩
  · intro j x hx
    rcases member_set hi hx with ⟨rfl, rfl⟩ | ⟨_, hx⟩
    · exact hplace
    · exact hf.places j x hx
  · intro j x hx
    rcases member_set hi hx with ⟨rfl, rfl⟩ | ⟨_, hx⟩
    · exact hnamed j m hi
    · exact hnamed j x hx
  · intro x hx
    obtain ⟨j, hj⟩ := List.mem_iff_getElem?.mp hx
    rcases member_set hi hj with ⟨rfl, rfl⟩ | ⟨hji, hj⟩
    · -- for the member itself it is a move of its course
      have hcourse : (f.advance j m mv).course { m with
          stage := ((f.course m).move mv).stage
          log := ((f.course m).move mv).log
          decided := ((f.course m).move mv).decided } = (f.course m).move mv := by
        show ({
          handle := (f.course m).handle
          hub := ((f.course m).move mv).hub
          stage := ((f.course m).move mv).stage
          log := ((f.course m).move mv).log
          decided := ((f.course m).move mv).decided
          outlet := (f.course m).outlet } : Course) = _
        rw [← hhandle, ← houtlet]
      show Course.Opened m.opened ((f.advance j m mv).course _)
      rw [hcourse]
      exact hm.play [mv]
    · -- for the others it is something asked through a handle that is not theirs
      refine (hf.courses x (List.mem_of_getElem? hj)).beside (Nat.le_of_eq hnow.symm) ?_ hreg
      intro c hc
      refine Registry.Call.spares_of_through (hcs c hc) ?_
      show x.opened.handle ≠ m.opened.handle
      rw [hplace, hf.places j x hj]
      exact hji
  · intro l hl
    show l.sink.handle < (f.members.set i _).length
    rw [List.length_set]
    exact hf.attached l hl

/-- What a member asks of the registry concerns its own entry. -/
theorem Charted.advance_same (hf : f.Charted) {i : Nat} {m : Member} {mv : Course.Move}
    (hi : f.members[i]? = some m) (hmv : mv.isOwn = true) (hk : k ≠ i) :
    f.hub.registry.Same (f.advance i m mv).hub.registry k := by
  obtain ⟨_, _, _, cs, hcs, hreg⟩ :=
    Course.move_own hmv (hf.courses m (List.mem_of_getElem? hi)).handles
  have hplace : (f.course m).handle = i := hf.places i m hi
  rw [hplace] at hcs
  show Registry.Same _ ((f.course m).move mv).hub.registry k
  rw [hreg]
  exact Registry.same_calls hf.sound hcs hk

theorem outlet_sink (f : Fleet) (h : Handle) (s : Sink) (hs : (f.outlet h).sink = some s) :
    s.handle = h := by
  unfold outlet at hs
  split at hs
  · rename_i l hl
    have hkey := List.find?_some hl
    rw [← Listener.outlet_sink hs]
    exact beq_iff_eq.mp hkey
  · exact absurd hs (by simp)

/-- **The reader of an entry makes a move**, and no other does. -/
theorem Charted.tuned (hf : f.Charted) {f' : Fleet} (om : Outlet.Move)
    (hmembers : f'.members = f.members)
    (hhub : f'.hub = { f.hub with
      registry := ((f.outlet h).move h f.hub.now f.hub.registry om).2 })
    (hself : f'.outlet h = ((f.outlet h).move h f.hub.now f.hub.registry om).1)
    (hothers : ∀ k, k ≠ h → f'.outlet k = f.outlet k)
    (hreaders : (f'.listeners.map (·.sink.handle)).Nodup)
    (hattached : ∀ l ∈ f'.listeners, l.sink.handle < f.members.length) : f'.Charted := by
  obtain ⟨cs, hcs, hreg⟩ :=
    (f.outlet h).move_through (f.outlet_sink h) f.hub.now f.hub.registry om
  have hcalls : f'.hub.registry = f.hub.registry.calls cs := by
    rw [hhub]
    exact hreg
  obtain ⟨hsound, hentries, hnamed⟩ :=
    hf.entries_calls fun x hx r => Registry.opens_of_through r (hcs x hx)
  rw [← hcalls] at hsound hentries hnamed
  rw [← hmembers] at hentries hnamed hattached
  refine ⟨hsound, ?_, hentries, hnamed, ?_, hreaders, hattached⟩
  · rw [hmembers]
    exact hf.places
  · rw [hmembers]
    intro m hm
    by_cases hmh : m.opened.handle = h
    · -- what its reader does is a move of the course, too
      have hcourse : f'.course m = (f.course m).move (.reader om) := by
        subst hmh
        unfold course
        rw [hhub, hself]
        rfl
      rw [hcourse]
      exact (hf.courses m hm).play [.reader om]
    · -- for the others it is asked through a handle that is not theirs
      have hcourse : f'.course m = { f.course m with hub := f'.hub } := by
        unfold course
        rw [hothers _ hmh]
      have hnow : f.hub.now = f'.hub.now := by rw [hhub]
      rw [hcourse]
      exact (hf.courses m hm).beside (Nat.le_of_eq hnow)
        (fun x hx => Registry.Call.spares_of_through (hcs x hx) hmh) hcalls

/-- An entry whose reader's place is free is a member's, and no sink reads it. -/
theorem Charted.unread (hf : f.Charted) (ht : f.hub.registry.take? h = some registry) :
    h < f.members.length ∧ ∀ l ∈ f.listeners, l.sink.handle ≠ h := by
  unfold Registry.take? at ht
  split at ht
  · rename_i e' he'
    obtain ⟨e, he, htake⟩ := Option.bind_eq_some_iff.mp he'
    have hlt : h < f.members.length := by
      rw [← hf.entries]
      exact Registry.entry?_lt he
    refine ⟨hlt, ?_⟩
    intro l hl hlh
    obtain ⟨m, hm⟩ : ∃ m, f.members[h]? = some m := ⟨_, List.getElem?_eq_getElem hlt⟩
    -- with a sink at the entry the place would not be free
    obtain ⟨e₀, he₀, hfeeds⟩ := (hf.courses m (List.mem_of_getElem? hm)).delivers.feeds
    dsimp only [course] at he₀ hfeeds
    rw [hf.places h m hm] at he₀ hfeeds
    rw [he] at he₀
    cases he₀
    have hempty := hfeeds.awaited (Entry.take?_some htake).1
    rw [← hlh, outlet_of_mem hf.readers hl] at hempty
    have hdropped : l.dropped = false := congrArg Outlet.dropped hempty
    have hsink : l.outlet.sink = none := congrArg Outlet.sink hempty
    unfold Listener.outlet at hsink
    rw [hdropped] at hsink
    exact absurd hsink (by simp)
  · exact absurd ht (by simp)

theorem Charted.joined (hf : f.Charted) (ht : f.hub.registry.take? h = some registry) :
    Charted (f.join { handle := h } registry) := by
  obtain ⟨hlt, hunread⟩ := hf.unread ht
  have hempty := outlet_of_unread hunread
  have hmove : (f.outlet h).move h f.hub.now f.hub.registry .attach
      = ({ sink := some { handle := h } }, registry) := by
    rw [hempty]
    dsimp only [Outlet.move]
    rw [ht]
  have hreaders : ((f.join { handle := h } registry).listeners.map (·.sink.handle)).Nodup := by
    show ((f.listeners ++ [({ sink := { handle := h } } : Listener)]).map
      (·.sink.handle)).Nodup
    rw [List.map_append, List.nodup_append]
    refine ⟨hf.readers, by simp, ?_⟩
    intro x hx y hy hxy
    obtain ⟨l, hl, rfl⟩ := List.mem_map.mp hx
    exact hunread l hl (hxy.trans (List.mem_singleton.mp hy))
  refine hf.tuned .attach rfl ?_ ?_ (fun k hk => outlet_join_ne hk) hreaders ?_
  · rw [hmove]
    rfl
  · rw [hmove]
    exact outlet_of_mem hreaders (List.mem_append_right _ (List.mem_singleton.mpr rfl))
  · intro l hl
    rcases List.mem_append.mp hl with hold | hnew
    · exact hf.attached l hold
    · rw [List.mem_singleton.mp hnew]
      exact hlt

theorem Charted.turned (hf : f.Charted) {i : Nat} (om : Outlet.Move)
    (hi : f.listeners[i]? = some l) (hl : l'.sink.handle = l.sink.handle)
    (hmove : l.outlet.move l.sink.handle f.hub.now f.hub.registry om = (l'.outlet, registry)) :
    Charted (f.turn i l' registry) := by
  have hmem : l ∈ f.listeners := List.mem_of_getElem? hi
  rw [← outlet_of_mem hf.readers hmem] at hmove
  refine hf.tuned (h := l.sink.handle) om rfl ?_ ?_
    (fun k hk => outlet_turn_ne hf.readers hi hl hk) ?_ ?_
  · rw [hmove]
    rfl
  · rw [hmove]
    exact outlet_turn_self hf.readers hi hl
  · rw [handles_turn hi hl]
    exact hf.readers
  · intro j hj
    rcases List.mem_or_eq_of_mem_set hj with hold | hnew
    · exact hf.attached j hold
    · rw [hnew, hl]
      exact hf.attached l hmem

/-- A look-up that succeeds gives away the place of the entry that it found. -/
theorem step?_attached {a : Attachment} {r r' : Registry} {now : Nat} {s : Sink}
    (h : a.step? r now = some (.attached s r')) :
    r.lookup? a.id = some s.handle ∧ s = { handle := s.handle } ∧ r.take? s.handle = some r' := by
  rw [Attachment.step?_eq] at h
  split at h
  · exact absurd h (by simp)
  · split at h
    · rename_i k hl
      split at h
      · rename_i r₁ ht
        cases h
        exact ⟨hl, rfl, ht⟩
      · exact absurd h (by simp)
    · split at h <;> exact absurd h (by simp)

/-- **Preserved by every move.** -/
theorem Charted.moved (hf : f.Charted) (mv : Move) : (f.move mv).Charted := by
  have hnothing : ∀ x ∈ ([] : List Registry.Call), x.isClosing = true := List.forall_mem_nil _
  cases mv with
  | prepare table settings id files =>
      dsimp only [move]
      split
      · rename_i p hub ho
        exact hf.opened ho
      · rename_i e hub ho
        obtain ⟨hnow, hreg⟩ := Prepared.open?_hub ho
        exact hf.around (Nat.le_of_eq hnow.symm) hnothing (hreg ⟨e, rfl⟩)
  | discard i =>
      dsimp only [move]
      split
      · exact hf
      · rename_i m hi
        split
        · rename_i p _ _
          have hmarked := hf.marked hi
          exact hmarked.around (Nat.le_refl _) hnothing rfl
        · exact hf
  | session i mv =>
      dsimp only [move]
      split
      · exact hf
      · rename_i m hi
        split
        · rename_i hown
          exact hf.advanced hi (Bool.and_eq_true_iff.mp hown).1
        · exact hf
  | seek a =>
      dsimp only [move]
      split
      · rename_i s registry ha
        obtain ⟨_, hs, ht⟩ := step?_attached ha
        rw [hs]
        exact hf.joined ht
      · exact hf
  | attach h =>
      dsimp only [move]
      split
      · rename_i registry ht
        exact hf.joined ht
      · exact hf
  | receive k deadline =>
      dsimp only [move]
      split
      · exact hf
      · rename_i l hk
        split
        · exact hf
        · rename_i hpresent
          have hdropped : l.dropped = false := by simpa using hpresent
          split
          · rename_i a s registry hr
            exact hf.turned (.receive deadline) hk (Sink.receive?_some hr).1
              (Listener.outlet_receive hdropped hr)
          · exact hf
  | leave k =>
      dsimp only [move]
      split
      · exact hf
      · rename_i l hk
        split
        · exact hf
        · rename_i hpresent
          have hdropped : l.dropped = false := by simpa using hpresent
          exact hf.turned .drop hk rfl (Listener.outlet_leave hdropped)
  | wait ms => exact hf.around (Nat.le_add_right _ _) hnothing rfl
  | close id =>
      have hcs : ∀ x ∈ [Registry.Call.close id], x.isClosing = true :=
        List.forall_mem_singleton.mpr rfl
      exact hf.around (Nat.le_refl _) hcs rfl
  | closeEntry h =>
      have hcs : ∀ x ∈ [Registry.Call.closeEntry h], x.isClosing = true :=
        List.forall_mem_singleton.mpr rfl
      exact hf.around (Nat.le_refl _) hcs rfl
  | outside spools gates serial => exact hf.around (Nat.le_refl _) hnothing rfl

/-- **Each session of a fleet runs a course of its own**, whatever the others do. -/
theorem charted_play (hf : f.Charted) (ms : List Move) : (f.play ms).Charted := by
  induction ms generalizing f with
  | nil => exact hf
  | cons mv ms ih => exact ih (hf.moved mv)

end Fleet
end Intake
