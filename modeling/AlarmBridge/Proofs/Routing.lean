import AlarmBridge.Proofs.ChangeLog

/-! Push events reach the momentary sensors they are for, and nothing else.  These are, at the
cameras of the system that an event names, or at the one camera that it names there, the sensors of
its kind, as the first dump calls for them.  Each is turned on, with one clear more to come and one
announcement. -/

set_option autoImplicit false

namespace AlarmBridge

/-- The kind of momentary sensors that an event turns on, if it does. -/
def PushEvent.kind? (e : PushEvent) : Option MomentaryKind :=
  match e.eventType with
  | .motionDetected => some .motion
  | .doorbellDetected => some .doorbell
  | .other _ => none

/-- Whether a camera has a sensor of a kind and is not passed over by an event. -/
def PushEvent.calls (e : PushEvent) (kind : MomentaryKind) (r : CameraRecord) : Bool :=
  (kind = .motion || r.isDoorbell) && e.sensorSerial.all (· = r.serial)

/-- The momentary sensors that an event is for: those of its kind at the cameras of its system, or
at the one that it names. -/
def Session.addressees (s : Session) (e : PushEvent) : List Entity :=
  match e.kind?, s.systems.get? e.systemId with
  | some kind, some system =>
    if system.isLegacy then []
    else (system.cameras.values.filter (e.calls kind)).map (Entity.momentary e.systemId · kind)
  | _, _ => []

theorem filter_range_map_getElem? {α : Type} (l : List α) (p : α → Bool) :
    ((List.range l.length).filter fun i => l[i]?.any p).map (l[·]?) = (l.filter p).map some := by
  -- from the end, since places count from the front
  induction l using List.reverseRecOn with
  | nil => rfl
  | append_singleton l a ih =>
    have hearlier : ∀ i ∈ List.range l.length, (l ++ [a])[i]? = l[i]? := fun i hi =>
      List.getElem?_append_left (List.mem_range.mp hi)
    have hfilter : (List.range l.length).filter (fun i => (l ++ [a])[i]?.any p) =
        (List.range l.length).filter fun i => l[i]?.any p :=
      List.filter_congr fun i hi => by rw [hearlier i hi]
    have hmap : ((List.range l.length).filter fun i => l[i]?.any p).map ((l ++ [a])[·]?) =
        ((List.range l.length).filter fun i => l[i]?.any p).map (l[·]?) :=
      List.map_congr_left fun i hi => hearlier i (List.mem_filter.mp hi).1
    rw [List.length_append, List.length_singleton, List.range_succ, List.filter_append, hfilter,
      List.map_append, hmap, ih, List.filter_append, List.map_append]
    by_cases ha : p a = true <;> simp [ha]

theorem flatMap_singleton_if {α β : Type} (p : α → Bool) (f : α → β) (l : List α) :
    l.flatMap (fun a => if p a then [f a] else []) = (l.filter p).map f := by
  induction l with
  | nil => rfl
  | cons a l ih => by_cases ha : p a = true <;> simp [ha, ih]

/-- Of values under their own keys at most one has a property that only that of one key can have. -/
theorem Roster.Keyed.length_filter_le {κ α : Type} [Ord κ] [Std.TransOrd κ] [DecidableEq κ]
    {key : α → κ} {r : Roster κ α} (h : r.Keyed key) {k : κ} {p : α → Bool}
    (hp : ∀ v, p v = true → key v = k) : (r.values.filter p).length ≤ 1 := by
  have hone : r.values.filter p = (r.get? k).toList.filter p := by
    have hflat := h.flatMap_values (k := k) (f := fun v => if p v then [v] else [])
      fun v _ hv => if_neg fun hpv => hv (hp v hpv)
    simpa [flatMap_singleton_if] using hflat
  rw [hone]
  refine Nat.le_trans (List.length_filter_le _ _) ?_
  cases r.get? k <;> simp

namespace Bridge

section

variable {s : Session} {e : PushEvent}

/-- Of the sensors of a camera an event reaches the one of its kind, if the camera has it. -/
theorem filter_momentaryOf (e : PushEvent) (r : CameraRecord) :
    (Entity.momentaryOf e.systemId r).filter (·.receives e) =
      match e.kind? with
      | none => []
      | some kind => if e.calls kind r then [Entity.momentary e.systemId r kind] else [] := by
  have hreceives : ∀ kind, (Entity.momentary e.systemId r kind).receives e =
      (decide (e.eventType = kind.eventType) && e.sensorSerial.all (· = r.serial)) := by
    intro kind
    have hwants : decide (e.eventType ∈ (Entity.momentary e.systemId r kind).subscribed) =
        decide (e.eventType = kind.eventType) := decide_eq_decide.mpr List.mem_singleton
    have haccepts : (Entity.momentary e.systemId r kind).info.accepts e =
        e.sensorSerial.all (· = r.serial) := by
      show (decide (e.systemId = e.systemId) && e.sensorSerial.all (· = r.serial)) = _
      rw [decide_eq_true rfl, Bool.true_and]
    rw [Entity.receives, hwants, haccepts]
  have hdoorbell : (if r.isDoorbell then [Entity.momentary e.systemId r .doorbell] else []).filter
      (·.receives e) = if r.isDoorbell && (Entity.momentary e.systemId r .doorbell).receives e then
        [Entity.momentary e.systemId r .doorbell] else [] := by
    cases r.isDoorbell
    · rfl
    · simp [List.filter_cons]
  rw [Entity.momentaryOf, List.filter_cons, hdoorbell, hreceives, hreceives]
  unfold PushEvent.kind? PushEvent.calls
  cases e.eventType <;> simp [MomentaryKind.eventType]

theorem receives_of_mem_momentaryOf {systemId : UInt64} {r : CameraRecord} {ent : Entity}
    (hent : ent ∈ Entity.momentaryOf systemId r) (h : ent.receives e = true) :
    systemId = e.systemId := by
  obtain ⟨kind, -, rfl⟩ := Entity.mem_momentaryOf.mp hent
  have haccepts : (Entity.momentary systemId r kind).info.accepts e = true :=
    (Bool.and_eq_true_iff.mp h).2
  exact (of_decide_eq_true (Bool.and_eq_true_iff.mp haccepts).1).symm

/-- Of the entities of a system, cameras apart, an event reaches sensors of cameras at most. -/
theorem filter_sensorsOf (system : System) (e : PushEvent) :
    (sensorsOf system).filter (·.receives e) =
      if system.isLegacy then []
      else system.cameras.values.flatMap fun r =>
        (Entity.momentaryOf system.systemId r).filter (·.receives e) := by
  unfold sensorsOf
  split
  · rfl
  · have hpolled : (system.sensors.values.flatMap (Entity.ofSensor system.systemId)).filter
        (·.receives e) = [] := by
      refine List.filter_eq_nil_iff.mpr fun ent hent hreceives => ?_
      obtain ⟨r, -, hent⟩ := List.mem_flatMap.mp hent
      obtain ⟨flag, hrole, -⟩ := Entity.of_mem_ofSensor hent
      have hmomentary := Entity.isMomentary_of_receives hreceives
      simp [Entity.isMomentary, hrole] at hmomentary
    rw [List.filter_append, hpolled, List.nil_append, List.filter_flatMap]

theorem filter_camerasOf (system : System) (e : PushEvent) :
    (camerasOf system).filter (·.receives e) = [] := by
  refine List.filter_eq_nil_iff.mpr fun ent hent hreceives => ?_
  unfold camerasOf at hent
  split at hent
  · cases hent
  · obtain ⟨r, -, rfl⟩ := List.mem_map.mp hent
    have hmomentary := Entity.isMomentary_of_receives hreceives
    cases hmomentary

/-- The entities of a session that an event reaches are those it is for. -/
theorem filter_entitiesOf (hs : s.Keyed) (e : PushEvent) :
    (entitiesOf s).filter (·.receives e) = s.addressees e := by
  have hcameras : s.systems.values.flatMap (fun system =>
      (camerasOf system).filter (·.receives e)) = [] :=
    List.flatMap_eq_nil_iff.mpr fun system _ => filter_camerasOf system e
  have hother : ∀ system ∈ s.systems.values, system.systemId ≠ e.systemId →
      (sensorsOf system).filter (·.receives e) = [] := by
    intro system _ hid
    rw [filter_sensorsOf]
    split
    · rfl
    · refine List.flatMap_eq_nil_iff.mpr fun r _ => List.filter_eq_nil_iff.mpr fun ent hent h => ?_
      exact hid (receives_of_mem_momentaryOf hent h)
  rw [entitiesOf, List.filter_append, List.filter_flatMap, List.filter_flatMap, hcameras,
    List.append_nil, hs.systems.flatMap_values hother]
  unfold Session.addressees
  cases hget : s.systems.get? e.systemId with
  | none => cases e.kind? <;> rfl
  | some system =>
    have hid : system.systemId = e.systemId := hs.systems.key_of_get? hget
    rw [Option.toList_some, List.flatMap_singleton, filter_sensorsOf, hid]
    simp only [filter_momentaryOf]
    cases e.kind? with
    | none => simp
    | some kind => simp [flatMap_singleton_if]

/-- An event that names a device is for one sensor at most. -/
theorem length_addressees_le (hs : s.Keyed) (hnamed : e.sensorSerial.isSome) :
    (s.addressees e).length ≤ 1 := by
  obtain ⟨serial, hserial⟩ := Option.isSome_iff_exists.mp hnamed
  unfold Session.addressees
  split
  · next kind system _ hget =>
    split
    · simp
    · rw [List.length_map]
      refine (hs.cameras system (Roster.mem_values_of_get? hget)).length_filter_le (k := serial)
        fun r hr => ?_
      have hcalled : e.sensorSerial.all (· = r.serial) = true := (Bool.and_eq_true_iff.mp hr).2
      rw [hserial] at hcalled
      exact (of_decide_eq_true hcalled).symm
  · simp

/-- The receivers of an event are the entities it is for, each once and in the order of
registration. -/
theorem receivers_run (hs : s.Keyed) (clearDelay : Nat) (g : Grabber) (steps : List Step)
    (e : PushEvent) :
    let b := (setup s clearDelay g).run steps
    (b.receivers e).map (fun i => b.entities[i]?.map Entity.bare) = (s.addressees e).map some := by
  intro b
  have hentities : b.bare.entities = (entitiesOf s).map Entity.bare :=
    entities_run_bare s clearDelay g steps
  have hmap : (b.receivers e).map (fun i => b.entities[i]?.map Entity.bare) =
      (b.bare.receivers e).map (b.bare.entities[·]?) := by
    rw [receivers_bare]
    exact List.map_congr_left fun i _ => (getElem?_bare b i).symm
  have hbare : (s.addressees e).map Entity.bare = s.addressees e := by
    unfold Session.addressees
    split
    · split
      · rfl
      · rw [List.map_map]
        rfl
    · rfl
  rw [hmap, receivers, filter_range_map_getElem?, hentities, List.filter_map]
  have hsame : (fun ent : Entity => ent.receives e) ∘ Entity.bare = (·.receives e) := by
    funext ent
    exact ent.receives_bare e
  rw [hsame, filter_entitiesOf hs, hbare]

/-- What dispatching an event does to an entity, where the clock can hold the time of the clear: it
turns each receiver on and plans one clear more, and passes any other by. -/
theorem track_dispatch {b : Bridge} {i time : Nat} {t : Track} (hb : Timely b)
    (ht : b.track i = some t) (htime : b.clearTime? = some time) (e : PushEvent) :
    (b.dispatch e).1.track i = some (if i ∈ b.receivers e then t.act (b.now, .write true) else t) ∧
      (b.dispatch e).1.pendingClears i =
        b.pendingClears i + if i ∈ b.receivers e then 1 else 0 := by
  obtain ⟨ent, hent, rfl⟩ := Option.map_eq_some_iff.mp ht
  have hfollows := (follows_self hb ht).dispatch hent e
  have hserved : b.served e = b.receivers e := if_pos (by rw [htime]; rfl)
  have hreaches : (b.hearing i).reaches b.now e = decide (i ∈ b.receivers e) :=
    congrArg (fun l : List Nat => decide (i ∈ l)) hserved
  have hclear : (b.hearing i).clearTime? b.now = some time := htime
  have hmem : i ∈ b.receivers e ↔ ent.receives e = true := by
    have hlt : i < b.entities.length := (follows_self hb ht).lt_length
    rw [receivers, List.mem_filter, List.mem_range, hent, Option.any_some]
    exact and_iff_right hlt
  have hpending : b.pendingClears i = (b.clears i).length := pendingClears_eq b i
  by_cases hi : i ∈ b.receivers e
  · have hdispatched : ent.dispatched? e = some (.event e) := if_pos (hmem.mp hi)
    -- a receiver hears the event, and the clock can hold the time of its clear
    have hcourse : (Course.mk (b.clears i) []).hear? (b.hearing i) b.now (some (.event e)) =
        ⟨b.clears i ++ [time], [(b.now, .write true)]⟩ := by
      rw [Course.hear?_some, Course.hear, hreaches, if_pos (decide_eq_true hi), Course.trigger,
        hclear]
      rfl
    rw [hdispatched, hcourse] at hfollows
    rw [if_pos hi, if_pos hi, hfollows.pending, hpending]
    exact ⟨hfollows.track, List.length_append⟩
  · have hdispatched : ent.dispatched? e = none := if_neg fun h => hi (hmem.mpr h)
    rw [hdispatched, Course.hear?_none] at hfollows
    rw [if_neg hi, if_neg hi, hfollows.pending, hpending]
    exact ⟨hfollows.track, rfl⟩

theorem timely_run {clearDelay : Nat} {g : Grabber} {steps : List Step} {i : Nat} {ent : Entity}
    (hent : ((setup s clearDelay g).run steps).entities[i]? = some ent) :
    Timely ((setup s clearDelay g).run steps) := by
  obtain ⟨ent, hent, -⟩ := origin_run hent
  exact ((told_run hent steps).follows (follows_start hent rfl rfl) rfl).timely

theorem dispatch_answer (b : Bridge) (e : PushEvent) :
    (b.dispatch e).2 = if b.clearTime?.isSome || (b.receivers e).isEmpty then
      .delivered (b.receivers e).length else .overflow := by
  unfold dispatch
  cases b.receivers e with
  | nil => simp
  | cons i is => cases b.clearTime? <;> rfl

/-- A place is one of a receiver exactly if the event is for the entity there. -/
theorem mem_receivers_iff (hs : s.Keyed) {clearDelay : Nat} {g : Grabber} {steps : List Step}
    {i : Nat} {ent : Entity} (hent : ((setup s clearDelay g).run steps).entities[i]? = some ent) :
    i ∈ ((setup s clearDelay g).run steps).receivers e ↔ ent.bare ∈ s.addressees e := by
  constructor
  · intro hi
    have hmem := List.mem_map_of_mem (f := fun i =>
      ((setup s clearDelay g).run steps).entities[i]?.map Entity.bare) hi
    rw [receivers_run hs, hent] at hmem
    obtain ⟨ent', hent', heq⟩ := List.mem_map.mp hmem
    obtain rfl : ent' = ent.bare := Option.some.inj heq
    exact hent'
  · intro haddressed
    rw [← filter_entitiesOf hs, List.mem_filter, Entity.receives_bare] at haddressed
    rw [receivers, List.mem_filter, List.mem_range, hent]
    exact ⟨(List.getElem?_eq_some_iff.mp hent).1, haddressed.2⟩

/-- A receiver is on once the event is dispatched, has one clear more to come and has announced this
once. -/
theorem dispatch_of_mem_receivers {clearDelay : Nat} {g : Grabber} {steps : List Step} {i : Nat}
    {ent : Entity} (hent : ((setup s clearDelay g).run steps).entities[i]? = some ent)
    (htime : ((setup s clearDelay g).run steps).clearTime?.isSome)
    (hi : i ∈ ((setup s clearDelay g).run steps).receivers e) :
    let b := (setup s clearDelay g).run steps
    let after := (b.dispatch e).1
    after.entities[i]?.any (·.cell.value) = true ∧
      after.pendingClears i = b.pendingClears i + 1 ∧
      (.close ∉ steps → ∃ version, after.sentBy i = b.sentBy i ++
        [⟨ent.info.uniqueId, true, version, .ofMillis b.now⟩]) := by
  intro b after
  obtain ⟨time, htime⟩ := Option.isSome_iff_exists.mp htime
  have htrack : b.track i = some ⟨ent.cell, b.listening, b.sentBy i⟩ := by rw [track, hent]; rfl
  obtain ⟨hafter, hpending⟩ := track_dispatch (timely_run hent) htrack htime e
  rw [if_pos hi] at hafter hpending
  obtain ⟨ent', hent', hsame⟩ := Option.map_eq_some_iff.mp hafter
  refine ⟨?_, hpending, fun hopen => ?_⟩
  · have hvalue : ent'.cell.value = true := by
      have hcell := congrArg (·.cell.value) hsame
      simpa [Track.act] using hcell
    show (b.dispatch e).1.entities[i]?.any _ = true
    rw [hent', Option.any_some, hvalue]
  · obtain ⟨hlistening, hannounced⟩ := announced_run hopen hent
    have hspoken : Track.act ⟨ent.cell, b.listening, b.sentBy i⟩ (b.now, .write true) = _ :=
      Track.announce_eq hlistening
        ((ent.cell.announcedAs_write true).trans hannounced) b.now
    rw [hspoken, StateCell.value_write] at hsame
    exact ⟨_, congrArg Track.sent hsame⟩

theorem dispatch_of_not_mem_receivers {clearDelay : Nat} {g : Grabber} {steps : List Step} {i : Nat}
    {ent : Entity} (hent : ((setup s clearDelay g).run steps).entities[i]? = some ent)
    (htime : ((setup s clearDelay g).run steps).clearTime?.isSome)
    (hi : i ∉ ((setup s clearDelay g).run steps).receivers e) :
    let b := (setup s clearDelay g).run steps
    (b.dispatch e).1.track i = b.track i ∧
      (b.dispatch e).1.pendingClears i = b.pendingClears i := by
  intro b
  obtain ⟨time, htime⟩ := Option.isSome_iff_exists.mp htime
  have htrack : b.track i = some ⟨ent.cell, b.listening, b.sentBy i⟩ := by rw [track, hent]; rfl
  obtain ⟨hafter, hpending⟩ := track_dispatch (timely_run hent) htrack htime e
  rw [if_neg hi] at hafter hpending
  exact ⟨hafter.trans htrack.symm, hpending⟩

/-- Of every run and every event: it is delivered to the sensors of its kind at the cameras of the
system that it names, or at the one that it names there, as the first dump calls for them, each
once; the answer is their number, unless the clock cannot hold the time of a clear; and it is one at
most where a device is named.  Where the clock can hold that time, each of them is then on, has one
clear more to come and, while announcements are received, has announced itself once; nothing becomes
of any other entity. -/
theorem push_routing_exact (entryId : String) (first : Snapshot) (clearDelay : Nat) (g : Grabber)
    (steps : List Step) (e : PushEvent) :
    let s := Session.ofSnapshot entryId first
    let b := (setup s clearDelay g).run steps
    let after := (b.dispatch e).1
    ((b.receivers e).map (fun i => b.entities[i]?.map Entity.bare) = (s.addressees e).map some ∧
      ∀ (i : Nat) (ent : Entity), b.entities[i]? = some ent →
        (i ∈ b.receivers e ↔ ent.bare ∈ s.addressees e)) ∧
    (b.dispatch e).2 = (if b.clearTime?.isSome || (s.addressees e).isEmpty then
      .delivered (s.addressees e).length else .overflow) ∧
    (e.sensorSerial.isSome → (s.addressees e).length ≤ 1) ∧
    (b.clearTime?.isSome → ∀ (i : Nat) (ent : Entity), b.entities[i]? = some ent →
      (i ∈ b.receivers e → after.entities[i]?.any (·.cell.value) = true ∧
        after.pendingClears i = b.pendingClears i + 1 ∧
        (.close ∉ steps → ∃ version, after.sentBy i = b.sentBy i ++
          [⟨ent.info.uniqueId, true, version, .ofMillis b.now⟩])) ∧
      (i ∉ b.receivers e → after.track i = b.track i ∧
        after.pendingClears i = b.pendingClears i)) := by
  intro s b after
  have hs : s.Keyed := Session.keyed_ofSnapshot entryId first
  have hreceivers := receivers_run hs clearDelay g steps e
  have hlength : (b.receivers e).length = (s.addressees e).length := by
    have := congrArg List.length hreceivers
    simpa using this
  refine ⟨⟨hreceivers, fun i ent hent => mem_receivers_iff hs hent⟩, ?_, length_addressees_le hs,
    fun htime i ent hent => ⟨?_, ?_⟩⟩
  · have hempty : (b.receivers e).isEmpty = (s.addressees e).isEmpty := by
      rw [Bool.eq_iff_iff, List.isEmpty_iff_length_eq_zero, List.isEmpty_iff_length_eq_zero,
        hlength]
    rw [dispatch_answer, hempty, hlength]
  · exact dispatch_of_mem_receivers hent htime
  · exact dispatch_of_not_mem_receivers hent htime

end

end Bridge

end AlarmBridge
