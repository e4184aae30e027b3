import AlarmBridge.Proofs.Bridge.Heard
import AlarmBridge.Proofs.Bridge.Registered
import Mathlib.Data.List.Chain

/-! The announcements of an entity as a log of its state.  While they are received, every write and
every republishing appends the present value and version to the log; so neighbours in it agree or
differ by one flip and one version, and its end is the present state. -/

set_option autoImplicit false

namespace AlarmBridge

/-- How often a value flips as others are written in its place. -/
def flips : Bool → List Bool → Nat
  | _, [] => 0
  | value, next :: values => (if value = next then 0 else 1) + flips next values

@[simp] theorem flips_append (value : Bool) (values more : List Bool) :
    flips value (values ++ more) =
      flips value values + flips ((values.getLast?).getD value) more := by
  induction values generalizing value with
  | nil => simp [flips]
  | cons next values ih =>
    rw [List.cons_append, flips, flips, ih, Nat.add_assoc, List.getLast?_cons]
    rfl

/-- The second of two neighbouring values with their versions: the same, or flipped with the next
version. -/
def Succeeds (p q : Bool × UInt32) : Prop := q = p ∨ q = (!p.1, p.2 + 1)

/-- The value and the version that a change announces. -/
def StateChange.stamp (c : StateChange) : Bool × UInt32 := (c.isOn, c.version)

/-- An act that writes or publishes. -/
inductive Act.Speaks : Act → Prop
  | write (value : Bool) : Speaks (.write value)
  | publish : Speaks .publish

namespace Track

/-- What is seen of an entity is a faithful log of what has been done to it, from the value
`initial` and version 0 on. -/
structure Faithful (initial : Bool) (uniqueId : String) (acts : List (Nat × Act)) (t : Track) :
    Prop where
  listening : t.listening = true
  announced : t.cell.announcedAs = some uniqueId
  named : ∀ c ∈ t.sent, c.uniqueId = uniqueId
  written : t.cell.value = ((Act.writes acts).map (·.2)).getLast?.getD initial
  version : t.cell.version = .ofNat (flips initial ((Act.writes acts).map (·.2)))
  value : t.cell.value = (initial ^^ decide (t.cell.version.toNat % 2 = 1))
  chain : ((initial, 0) :: t.sent.map StateChange.stamp).IsChain Succeeds
  last : ((initial, 0) :: t.sent.map StateChange.stamp).getLast? =
    some (t.cell.value, t.cell.version)
  sent : flips initial (t.sent.map (·.isOn)) = flips initial ((Act.writes acts).map (·.2))

variable {initial : Bool} {acts : List (Nat × Act)} {t : Track} {uniqueId : String}

theorem faithful_start (value : Bool) (uniqueId : String) :
    Faithful value uniqueId [] ⟨(StateCell.new value).announce uniqueId, true, []⟩ where
  listening := rfl
  announced := rfl
  named := by simp
  written := rfl
  version := rfl
  value := (Bool.xor_false value).symm
  chain := .singleton _
  last := rfl
  sent := rfl

theorem parity_succ (v : UInt32) :
    decide ((v + 1).toNat % 2 = 1) = !decide (v.toNat % 2 = 1) := by
  have hadd : (v + 1).toNat = (v.toNat + 1) % 2 ^ 32 := UInt32.toNat_add v 1
  by_cases hv : v.toNat % 2 = 1
  · have hnext : ¬(v + 1).toNat % 2 = 1 := by omega
    rw [decide_eq_true hv, decide_eq_false hnext]
    rfl
  · have hnext : (v + 1).toNat % 2 = 1 := by omega
    rw [decide_eq_false hv, decide_eq_true hnext]
    rfl

theorem announce_eq (hlistening : t.listening = true)
    (hannounced : t.cell.announcedAs = some uniqueId) (time : Nat) : t.announce time =
      { t with sent := t.sent ++ [⟨uniqueId, t.cell.value, t.cell.version, .ofMillis time⟩] } := by
  simp [announce, hlistening, StateCell.change?, hannounced]

/-- Writing keeps the value and the version or takes both further. -/
theorem succeeds_write (c : StateCell) (value : Bool) :
    Succeeds (c.value, c.version) ((c.write value).value, (c.write value).version) ∧
      (c.write value).version = c.version + .ofNat (flips c.value [value]) := by
  by_cases hsame : c.value = value
  · have hwrite : c.write value = c := if_pos hsame
    rw [hwrite]
    exact ⟨.inl rfl, by simp [flips, hsame]⟩
  · have hwrite : c.write value = { c with value := value, version := c.version + 1 } :=
      if_neg hsame
    have hflip : value = !c.value := by
      cases hvalue : c.value <;> cases value <;> simp_all
    rw [hwrite]
    exact ⟨.inr (by rw [hflip]), by simp [flips, hsame]⟩

theorem Faithful.last_isOn (h : t.Faithful initial uniqueId acts) :
    (t.sent.map (·.isOn)).getLast?.getD initial = t.cell.value := by
  have hlast := h.last
  rw [List.getLast?_cons, List.getLast?_map] at hlast
  rw [List.getLast?_map]
  cases hsent : t.sent.getLast? with
  | none => simp_all
  | some c => simp_all [StateChange.stamp]

/-- A faithful log stays so as the state it ends with is followed by the next one. -/
theorem Faithful.say {cell : StateCell} {more : List (Nat × Act)}
    (h : t.Faithful initial uniqueId acts) (hannounced : cell.announcedAs = t.cell.announcedAs)
    (hstamp : Succeeds (t.cell.value, t.cell.version) (cell.value, cell.version))
    (hwritten : cell.value = ((Act.writes more).map (·.2)).getLast?.getD t.cell.value)
    (hversion : cell.version = t.cell.version + .ofNat (flips t.cell.value [cell.value]))
    (hflips : flips t.cell.value ((Act.writes more).map (·.2)) = flips t.cell.value [cell.value])
    (time : Time.Timestamp) :
    Faithful initial uniqueId (acts ++ more)
      { t with
        cell := cell
        sent := t.sent ++ [⟨uniqueId, cell.value, cell.version, time⟩] } where
  listening := h.listening
  announced := hannounced.trans h.announced
  named := by
    intro c hc
    rcases List.mem_append.mp hc with hc | hc
    · exact h.named c hc
    · rw [List.mem_singleton.mp hc]
  written := by
    rw [hwritten, h.written, Act.writes_append, List.map_append, List.getLast?_append]
    cases ((Act.writes more).map (·.2)).getLast? <;> simp
  version := by
    rw [Act.writes_append, List.map_append, flips_append, ← h.written, hflips, hversion, h.version]
    exact (UInt32.ofNat_add _ _).symm
  value := by
    rcases hstamp with hsame | hflip
    · obtain ⟨hvalue, hsame⟩ := Prod.mk.inj hsame
      show cell.value = _
      rw [hvalue, hsame]
      exact h.value
    · obtain ⟨hvalue, hnext⟩ := Prod.mk.inj hflip
      show cell.value = (initial ^^ decide (cell.version.toNat % 2 = 1))
      rw [hvalue, hnext, parity_succ, h.value]
      simp
  chain := by
    rw [List.map_append, ← List.cons_append]
    refine h.chain.append (.singleton _) fun p hp q hq => ?_
    obtain rfl : (t.cell.value, t.cell.version) = p := by simpa [h.last] using hp
    obtain rfl : (cell.value, cell.version) = q := by simpa [StateChange.stamp] using hq
    exact hstamp
  last := by
    rw [List.map_append, ← List.cons_append, List.getLast?_append]
    rfl
  sent := by
    rw [List.map_append, flips_append, h.last_isOn, h.sent, Act.writes_append, List.map_append,
      flips_append, ← h.written, hflips]
    rfl

/-- The log is faithful after an act as it was before. -/
theorem Faithful.act {a : Act} (h : t.Faithful initial uniqueId acts) (ha : a.Speaks) (time : Nat) :
    (t.act (time, a)).Faithful initial uniqueId (acts ++ [(time, a)]) := by
  cases ha with
  | write value =>
    obtain ⟨hstamp, hversion⟩ := succeeds_write t.cell value
    have hannounced := t.cell.announcedAs_write value
    have hact : t.act (time, .write value) = { t with
        cell := t.cell.write value
        sent := t.sent ++ [⟨uniqueId, (t.cell.write value).value, (t.cell.write value).version,
          .ofMillis time⟩] } :=
      announce_eq (t := { t with cell := t.cell.write value }) h.listening
        (hannounced.trans h.announced) time
    rw [hact]
    exact h.say hannounced hstamp (by simp [Act.writes]) (by simpa using hversion)
      (by simp [Act.writes]) _
  | publish =>
    have hact : t.act (time, .publish) = { t with
        cell := t.cell
        sent := t.sent ++ [⟨uniqueId, t.cell.value, t.cell.version, .ofMillis time⟩] } :=
      announce_eq h.listening h.announced time
    rw [hact]
    exact h.say rfl (.inl rfl) rfl (by simp [flips]) (by simp [Act.writes, flips]) _

/-- An entity that is announced from the start and only spoken of is logged faithfully. -/
theorem faithful_replay (value : Bool) (uniqueId : String) (hspeak : ∀ a ∈ acts, a.2.Speaks) :
    (replay ⟨(StateCell.new value).announce uniqueId, true, []⟩ acts).Faithful value uniqueId
      acts := by
  induction acts using List.reverseRecOn with
  | nil => exact faithful_start value uniqueId
  | append_singleton acts a ih =>
    have hfaithful := ih fun b hb => hspeak b (List.mem_append_left _ hb)
    rw [replay_append, replay_singleton]
    exact hfaithful.act (hspeak a (by simp)) a.1

end Track

/-- Where only writing and publishing is asked for, nothing else is done. -/
theorem Course.speaks_play {k : Hearing} {c : Course} {inputs : List (Nat × Input)}
    (hacts : ∀ a ∈ c.acts, a.2.Speaks)
    (hinputs : ∀ x ∈ inputs, ∀ a, x.2 = .act a → a.Speaks) (time : Nat) :
    ∀ a ∈ (c.play k inputs time).acts, a.2.Speaks := by
  have helapse : ∀ (c : Course) t, (∀ a ∈ c.acts, a.2.Speaks) →
      ∀ a ∈ (c.elapse t).acts, a.2.Speaks := by
    intro c t hacts a ha
    rcases List.mem_append.mp ha with ha | ha
    · exact hacts a ha
    · obtain ⟨due, -, rfl⟩ := List.mem_map.mp ha
      exact .write false
  have hsnoc : ∀ (acts : List (Nat × Act)) t a, (∀ a ∈ acts, a.2.Speaks) → a.Speaks →
      ∀ b ∈ acts ++ [(t, a)], b.2.Speaks := by
    intro acts t a hacts ha b hb
    rcases List.mem_append.mp hb with hb | hb
    · exact hacts b hb
    · rw [List.mem_singleton.mp hb]
      exact ha
  induction inputs generalizing c with
  | nil => exact helapse c time hacts
  | cons x inputs ih =>
    obtain ⟨t, x⟩ := x
    refine ih ?_ fun y hy => hinputs y (List.mem_cons_of_mem _ hy)
    have helapsed := helapse c t hacts
    cases x with
    | act a => exact hsnoc _ t a helapsed (hinputs (t, .act a) List.mem_cons_self a rfl)
    | trigger => exact hsnoc _ t _ helapsed (.write true)
    | event e =>
      rw [hear]
      split
      · exact hsnoc _ t _ helapsed (.write true)
      · exact helapsed

namespace Bridge

/-- What a run does to the entity at a place. -/
def actsOn (b : Bridge) (i : Nat) (ent : Entity) (steps : List Step) : List (Nat × Act) :=
  (Course.start.play (b.hearing i) (ent.heard i b.session (b.timed steps)) (b.run steps).now).acts

variable {ent : Entity} {i : Nat}

theorem speaks_input? {session : Session} {s : Step} {a : Act} (hopen : s ≠ .close)
    (h : ent.input? i session s = some (.act a)) : a.Speaks := by
  have hrefreshed : ∀ session, ent.refreshed? session = some (.act a) → a.Speaks := by
    intro session h
    obtain ⟨value, -, hvalue⟩ := Option.map_eq_some_iff.mp h
    obtain rfl : .write value = a := by simpa using hvalue
    exact .write value
  have hdispatched : ∀ e, ent.dispatched? e ≠ some (.act a) := by
    intro e h
    unfold Entity.dispatched? at h
    split at h <;> simp at h
  cases s with
  | publishAll =>
    obtain rfl : .publish = a := by simpa [Entity.input?] using h
    exact .publish
  | refresh => exact hrefreshed session h
  | poll text =>
    simp only [Entity.input?] at h
    split at h
    · exact hrefreshed _ h
    · simp at h
  | push text =>
    simp only [Entity.input?] at h
    split at h
    · exact absurd h (hdispatched _)
    · simp at h
  | dispatch e => exact absurd h (hdispatched e)
  | deliver j e =>
    simp only [Entity.input?] at h
    split at h <;> simp at h
  | close => exact absurd rfl hopen
  | _ => simp [Entity.input?] at h

theorem speaks_heard {steps : List (Nat × Step)} (hopen : ∀ x ∈ steps, x.2 ≠ .close)
    (session : Session) :
    ∀ x ∈ ent.heard i session steps, ∀ a, x.2 = .act a → a.Speaks := by
  induction steps generalizing session with
  | nil => simp [Entity.heard]
  | cons step steps ih =>
    intro x hx a ha
    rcases List.mem_append.mp hx with hx | hx
    · obtain ⟨input, hinput, rfl⟩ := Option.map_eq_some_iff.mp (Option.mem_toList.mp hx)
      obtain rfl : input = .act a := ha
      exact speaks_input? (hopen step List.mem_cons_self) hinput
    · exact ih (fun y hy => hopen y (List.mem_cons_of_mem _ hy)) _ x hx a ha

theorem mem_timed {b : Bridge} {steps : List Step} {x : Nat × Step} (hx : x ∈ b.timed steps) :
    x.2 ∈ steps := by
  induction steps generalizing b with
  | nil => simp [timed] at hx
  | cons s steps ih =>
    rcases List.mem_cons.mp hx with rfl | hx
    · exact List.mem_cons_self
    · exact List.mem_cons_of_mem s (ih hx)

/-- Setting up announces every entity under its id. -/
theorem cell_setup {s : Session} {clearDelay : Nat} {g : Grabber}
    (hent : (setup s clearDelay g).entities[i]? = some ent) :
    ent.cell = (StateCell.new ent.cell.value).announce ent.info.uniqueId := by
  obtain ⟨e, he, rfl⟩ := getElem?_setup hent
  exact congrArg (·.announce e.info.uniqueId) (cell_of_mem_entitiesOf he)

/-- Where the announcements are still received, what is seen of an entity is a faithful log of what
the run has done to it. -/
theorem faithful_run {s : Session} {clearDelay : Nat} {g : Grabber} {steps : List Step} {e : Entity}
    (hopen : .close ∉ steps)
    (he : ((setup s clearDelay g).run steps).entities[i]? = some e) :
    ∃ initial acts, Track.Faithful initial e.info.uniqueId acts
      ⟨e.cell, ((setup s clearDelay g).run steps).listening,
        ((setup s clearDelay g).run steps).sentBy i⟩ := by
  obtain ⟨ent, hent, hbare⟩ := origin_run he
  have hinfo : ent.info = e.info := (congrArg Entity.info hbare :)
  have hsteps : ∀ x ∈ (setup s clearDelay g).timed steps, x.2 ≠ .close := fun x hx hclose =>
    hopen (hclose ▸ mem_timed hx)
  have hspeak : ∀ a ∈ (setup s clearDelay g).actsOn i ent steps, a.2.Speaks :=
    Course.speaks_play (by simp [Course.start]) (speaks_heard hsteps _) _
  have hfollows := (told_run hent steps).follows (follows_start hent rfl rfl) rfl
  have hfaithful := Track.faithful_replay ent.cell.value ent.info.uniqueId hspeak
  rw [← cell_setup hent] at hfaithful
  have htrack : ((setup s clearDelay g).run steps).track i =
      some (Track.replay ⟨ent.cell, true, []⟩ ((setup s clearDelay g).actsOn i ent steps)) :=
    hfollows.track
  rw [track, he, Option.map_some, Option.some.injEq] at htrack
  rw [← htrack, hinfo] at hfaithful
  exact ⟨_, _, hfaithful⟩

/-- Where the announcements are still received, every entity is announced under its id. -/
theorem announced_run {s : Session} {clearDelay : Nat} {g : Grabber} {steps : List Step}
    {e : Entity} (hopen : .close ∉ steps)
    (he : ((setup s clearDelay g).run steps).entities[i]? = some e) :
    ((setup s clearDelay g).run steps).listening = true ∧
      e.cell.announcedAs = some e.info.uniqueId := by
  obtain ⟨initial, acts, hfaithful⟩ := faithful_run hopen he
  exact ⟨hfaithful.listening, hfaithful.announced⟩

/-- As long as the announcements are received, they are at every moment of every run a faithful log
of the entity: its version counts the flips and its value is that parity of flips from the start;
neighbours in the log, and the start with the first, agree or differ by one flip and one version;
and the log ends with the present state. -/
theorem change_log_faithful (s : Session) (clearDelay : Nat) (g : Grabber) {i : Nat} {ent : Entity}
    (hent : (setup s clearDelay g).entities[i]? = some ent) {steps : List Step}
    (hopen : .close ∉ steps) :
    let b := setup s clearDelay g
    (b.run steps).track i = some (Track.replay ⟨ent.cell, true, []⟩ (b.actsOn i ent steps)) ∧
      ∀ moment, moment <+: b.actsOn i ent steps →
        (Track.replay ⟨ent.cell, true, []⟩ moment).Faithful ent.cell.value ent.info.uniqueId
          moment := by
  intro b
  refine ⟨?_, fun moment hmoment => ?_⟩
  · exact ((told_run hent steps).follows (follows_start hent rfl rfl) rfl).track
  · have hsteps : ∀ x ∈ b.timed steps, x.2 ≠ .close := fun x hx hclose =>
      hopen (hclose ▸ mem_timed hx)
    have hspeak : ∀ a ∈ b.actsOn i ent steps, a.2.Speaks :=
      Course.speaks_play (by simp [Course.start]) (speaks_heard hsteps b.session) _
    rw [cell_setup hent]
    exact Track.faithful_replay _ _ fun a ha => hspeak a (hmoment.subset ha)

/-- An account with one sensor at a door, which is open or closed. -/
def oneDoor (isOpen : Bool) : Snapshot :=
  ⟨"token", [⟨1, 3, .off, [⟨"s1", "Door", .entry, isOpen, false⟩], []⟩]⟩

/-- A door that is closed between two refreshes flips once, whether or not it is published
besides. -/
theorem change_log_faithful_oneDoor :
    let b := setup (.ofSnapshot "home" (oneDoor true)) 30000 ⟨[], [], []⟩
    ((b.run [.publishAll, .refresh, .apply (oneDoor false), .refresh, .publishAll]).track 0).map
      (·.cell.version) = some 1 := by
  intro b
  let ent : Entity := { Entity.triggered 1 ⟨"s1", "Door", .entry, true, false⟩ .door with
    cell := (StateCell.new true).announce "s1" }
  let steps : List Step := [.publishAll, .refresh, .apply (oneDoor false), .refresh, .publishAll]
  have hent : b.entities[0]? = some ent := by decide +kernel
  have hopen : .close ∉ steps := by simp [steps]
  obtain ⟨htrack, hfaithful⟩ :=
    change_log_faithful (.ofSnapshot "home" (oneDoor true)) 30000 ⟨[], [], []⟩ hent hopen
  have hversion := (hfaithful _ List.prefix_rfl).version
  have hflips : flips true ((Act.writes (b.actsOn 0 ent steps)).map (·.2)) = 1 := by decide +kernel
  show ((b.run steps).track 0).map (·.cell.version) = some 1
  rw [htrack, Option.map_some, hversion]
  exact congrArg (fun n => some (UInt32.ofNat n)) hflips

end Bridge

end AlarmBridge
