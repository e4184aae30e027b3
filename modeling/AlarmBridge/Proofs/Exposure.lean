import AlarmBridge.Proofs.Bridge.Heard
import AlarmBridge.Proofs.Bridge.Outbox
import AlarmBridge.Proofs.Rebuild

/-! Which systems are exposed.  Setting up leaves out the devices of systems whose version, in their
last entry in the first dump, is that of legacy base stations; the devices of every other system
become entities.  No later dump changes a version, and only registered entities announce anything or
receive events, so nothing is ever heard of a legacy system. -/

set_option autoImplicit false

namespace AlarmBridge

/-- The last entry of a system in a dump. -/
def Snapshot.entry? (s : Snapshot) (systemId : UInt64) : Option SystemSnapshot :=
  (s.systems.filter (·.systemId = systemId)).getLast?

/-- Whether a dump tells of a system whose base station is not a legacy one. -/
def Snapshot.Exposes (s : Snapshot) (systemId : UInt64) : Prop :=
  ∃ entry, s.entry? systemId = some entry ∧ entry.version ≠ 2

/-- The version of a system in a session. -/
def Session.version? (s : Session) (systemId : UInt64) : Option UInt8 :=
  (s.systems.get? systemId).map (·.version)

theorem Roster.mem_of_mem_values_ofList {κ α : Type} [Ord κ] [Std.TransOrd κ] [Std.LawfulEqOrd κ]
    [DecidableEq κ] {key : α → κ} {vs : List α} {v : α} (h : v ∈ (ofList key vs).values) :
    v ∈ vs := by
  have hget := (keyed_ofList key vs).get?_of_mem_values h
  rw [get?_ofList] at hget
  exact (List.mem_filter.mp (List.mem_of_getLast? hget)).1

namespace Session

theorem get?_ofSnapshot_of_entry? (entryId : String) (s : Snapshot) (systemId : UInt64) :
    (ofSnapshot entryId s).systems.get? systemId = (s.entry? systemId).map System.ofSnapshot :=
  get?_ofSnapshot entryId s systemId

theorem version?_apply (s : Session) (next : Snapshot) (systemId : UInt64) :
    (s.apply next).version? systemId = s.version? systemId := by
  rw [version?, get?_apply, Option.map_map]
  exact congrArg (Option.map · _) (funext fun system => (System.foldl_apply_header _ system).2.1)

/-- No step changes the version of a system. -/
theorem version?_after (s : Session) (step : Bridge.Step) (systemId : UInt64) :
    (s.after step).version? systemId = s.version? systemId := by
  cases step with
  | apply next => exact version?_apply s next systemId
  | poll text =>
    simp only [after]
    split
    · exact version?_apply s _ systemId
    · rfl
  | setState id state =>
    show (s.setState id state).version? systemId = _
    rw [version?, get?_setState]
    split
    · rw [Option.map_map]
      rfl
    · rfl
  | _ => rfl

end Session

namespace Bridge

theorem version?_run (b : Bridge) (steps : List Step) (systemId : UInt64) :
    (b.run steps).session.version? systemId = b.session.version? systemId := by
  rw [session_run]
  exact List.foldlRecOn (motive := fun s => s.version? systemId = b.session.version? systemId)
    steps Session.after rfl fun s hs step _ => (s.version?_after step systemId).trans hs

/-- An entity is of a device in the last entry of its system in a dump, and its system has there and
in a session one version, which is not that of legacy base stations. -/
def Exposed (first : Snapshot) (s : Session) (e : Entity) : Prop :=
  ∃ entry, first.entry? e.info.systemId = some entry ∧ entry.version ≠ 2 ∧
    s.version? e.info.systemId = some entry.version ∧
    (e.info.deviceSerial ∈ entry.sensors.map (·.serial) ∨
      e.info.deviceSerial ∈ entry.cameras.map (·.serial))

theorem Exposed.exposes {first : Snapshot} {s : Session} {e : Entity} (h : Exposed first s e) :
    first.Exposes e.info.systemId := by
  obtain ⟨entry, hentry, hversion, -⟩ := h
  exact ⟨entry, hentry, hversion⟩

variable {entryId : String} {first : Snapshot}

theorem exposed_of_mem_entitiesOf {e : Entity} (h : e ∈ entitiesOf (.ofSnapshot entryId first)) :
    Exposed first (.ofSnapshot entryId first) e := by
  obtain ⟨system, hsystem, hlegacy, hdevice⟩ := of_mem_entitiesOf h
  have hget := (Session.keyed_ofSnapshot entryId first).systems.get?_of_mem_values hsystem
  rw [Session.get?_ofSnapshot_of_entry?] at hget
  obtain ⟨entry, hentry, rfl⟩ := Option.map_eq_some_iff.mp hget
  have hdevice : e.info.systemId = entry.systemId ∧
      (e.info.deviceSerial ∈ entry.sensors.map (·.serial) ∨
        e.info.deviceSerial ∈ entry.cameras.map (·.serial)) := by
    rcases hdevice with ⟨r, hr, he⟩ | ⟨r, hr, he⟩
    · obtain ⟨flag, -, hid, hserial, -⟩ := Entity.of_mem_ofSensor he
      rw [hserial]
      exact ⟨hid, .inl (List.mem_map_of_mem (Roster.mem_of_mem_values_ofList hr))⟩
    · have hserial : r.serial ∈ entry.cameras.map (·.serial) :=
        List.mem_map_of_mem (Roster.mem_of_mem_values_ofList hr)
      rcases he with he | rfl
      · obtain ⟨kind, -, rfl⟩ := Entity.mem_momentaryOf.mp he
        exact ⟨rfl, .inr hserial⟩
      · exact ⟨rfl, .inr hserial⟩
  obtain ⟨hid, hserial⟩ := hdevice
  have hfound : first.entry? e.info.systemId = some entry := hid ▸ hentry
  refine ⟨entry, hfound, of_decide_eq_false hlegacy, ?_, hserial⟩
  rw [Session.version?, Session.get?_ofSnapshot_of_entry?, hfound]
  rfl

theorem exposed_run {clearDelay : Nat} {g : Grabber} {steps : List Step} {e : Entity}
    (he : e ∈ ((setup (.ofSnapshot entryId first) clearDelay g).run steps).entities) :
    Exposed first ((setup (.ofSnapshot entryId first) clearDelay g).run steps).session e := by
  obtain ⟨i, he⟩ := List.mem_iff_getElem?.mp he
  obtain ⟨registered, hregistered, hbare⟩ := origin_run he
  obtain ⟨ent, hent, rfl⟩ := getElem?_setup hregistered
  have hinfo : ent.info = e.info := (congrArg Entity.info hbare :)
  obtain ⟨entry, hentry, hversion, hkept, hserial⟩ := exposed_of_mem_entitiesOf hent
  rw [hinfo] at hentry hkept hserial
  exact ⟨entry, hentry, hversion, (version?_run _ steps _).trans hkept, hserial⟩

/-- The cameras of every system that is exposed are registered. -/
theorem exists_camera_of_exposes (entryId : String) {systemId : UInt64} {entry : SystemSnapshot}
    {r : CameraRecord} (hentry : first.entry? systemId = some entry) (hversion : entry.version ≠ 2)
    (hr : r ∈ entry.cameras) :
    ∃ e ∈ entitiesOf (.ofSnapshot entryId first), e.isCamera = true ∧
      e.info.systemId = systemId ∧ e.info.deviceSerial = r.serial := by
  have hget : (Session.ofSnapshot entryId first).systems.get? systemId =
      some (System.ofSnapshot entry) := by
    rw [Session.get?_ofSnapshot_of_entry?, hentry]
    rfl
  have hid : entry.systemId = systemId :=
    (Session.keyed_ofSnapshot entryId first).systems.key_of_get? hget
  obtain ⟨last, -, hserial, hlast⟩ := Roster.exists_get?_ofList CameraRecord.serial hr
  have hlegacy : (System.ofSnapshot entry).isLegacy = false := decide_eq_false hversion
  refine ⟨cameraOf systemId last, List.mem_append_right _ (List.mem_flatMap.mpr
    ⟨_, Roster.mem_values_of_get? hget, ?_⟩), rfl, rfl, hserial⟩
  rw [camerasOf, hlegacy, ← hid]
  exact List.mem_map_of_mem (Roster.mem_values_of_get? hlast)

/-- An event is delivered to entities of its system. -/
theorem systemId_of_mem_receivers {b : Bridge} {event : PushEvent} {i : Nat}
    (hi : i ∈ b.receivers event) :
    ∃ e, b.entities[i]? = some e ∧ e.info.systemId = event.systemId := by
  have hreceives := (List.mem_filter.mp hi).2
  cases he : b.entities[i]? with
  | none =>
    rw [he] at hreceives
    cases hreceives
  | some e =>
    rw [he, Option.any_some] at hreceives
    have haccepts := (Bool.and_eq_true_iff.mp hreceives).2
    exact ⟨e, rfl, (of_decide_eq_true (Bool.and_eq_true_iff.mp haccepts).1).symm⟩

/-- Of every first dump and every run: whatever is registered, announces or receives an event is of
a device in the last entry of its system, whose version there and at present is not 2.  An event of
any other system is delivered to nobody and changes nothing, but is noted in the log.  Systems of
all other versions are exposed: the cameras in the last entry of a system are registered exactly if
its version is not 2. -/
theorem legacy_systems_unexposed (entryId : String) (first : Snapshot) (clearDelay : Nat)
    (g : Grabber) (steps : List Step) :
    let b := (setup (.ofSnapshot entryId first) clearDelay g).run steps
    (∀ e ∈ b.entities, Exposed first b.session e) ∧
    (∀ n ∈ b.outbox, ∃ e, b.entities[n.source]? = some e ∧ n.change.uniqueId = e.info.uniqueId ∧
      Exposed first b.session e) ∧
    (∀ event, ∀ i ∈ b.receivers event, ∃ e, b.entities[i]? = some e ∧
      e.info.systemId = event.systemId ∧ Exposed first b.session e) ∧
    (∀ event, ¬first.Exposes event.systemId → b.dispatch event =
      (b.note [⟨.debug, .bridge, "[Push] No entity subscribed to " ++ event.describe⟩],
        .delivered 0)) ∧
    ∀ systemId entry, first.entry? systemId = some entry → ∀ r ∈ entry.cameras,
      (∃ e ∈ b.entities, e.isCamera = true ∧ e.info.systemId = systemId ∧
        e.info.deviceSerial = r.serial) ↔ entry.version ≠ 2 := by
  intro b
  have hexposed : ∀ e ∈ b.entities, Exposed first b.session e := fun e he => exposed_run he
  have hat : ∀ {i : Nat} {e : Entity}, b.entities[i]? = some e → Exposed first b.session e :=
    fun he => hexposed _ (List.mem_of_getElem? he)
  refine ⟨hexposed, ?_, ?_, ?_, ?_⟩
  · intro n hn
    have hsigned : Signed b := signed_run (.ofSnapshot entryId first) clearDelay g steps
    obtain ⟨e, he, hid⟩ := hsigned.notices n hn
    exact ⟨e, he, hid, hat he⟩
  · intro event i hi
    obtain ⟨e, he, hid⟩ := systemId_of_mem_receivers hi
    exact ⟨e, he, hid, hat he⟩
  · intro event hunexposed
    have hnone : b.receivers event = [] := by
      refine List.eq_nil_iff_forall_not_mem.mpr fun i hi => hunexposed ?_
      obtain ⟨e, he, hid⟩ := systemId_of_mem_receivers hi
      exact hid ▸ (hat he).exposes
    rw [dispatch, hnone]
    rfl
  · intro systemId entry hentry r hr
    constructor
    · rintro ⟨e, he, -, rfl, -⟩
      obtain ⟨entry', hentry', hversion, -⟩ := hexposed e he
      obtain rfl : entry = entry' := Option.some.inj (hentry.symm.trans hentry')
      exact hversion
    · intro hversion
      obtain ⟨ent, hent, hcamera, hid, hserial⟩ :=
        exists_camera_of_exposes entryId hentry hversion hr
      have hbare : b.entities.map Entity.bare = (entitiesOf _).map Entity.bare :=
        entities_run_bare (.ofSnapshot entryId first) clearDelay g steps
      obtain ⟨e, he, hsame⟩ := List.mem_map.mp (hbare ▸ List.mem_map_of_mem hent)
      have hinfo : e.info = ent.info := (congrArg Entity.info hsame :)
      refine ⟨e, he, ?_, hinfo ▸ hid, hinfo ▸ hserial⟩
      rw [← e.isCamera_bare, hsame, ent.isCamera_bare, hcamera]

/-- A legacy system and one of a later version than the current one, each with a camera. -/
def twoVersions : Snapshot :=
  let hall : CameraRecord := ⟨"c1", "Hall", .camera, "online", true, true, true, true⟩
  ⟨"token", [⟨1, 2, .off, [], [hall]⟩, ⟨2, 4, .off, [], [hall]⟩]⟩

/-- Motion at the legacy system is heard by nobody, while the camera of the other is registered. -/
theorem legacy_systems_unexposed_twoVersions :
    let b := (setup (.ofSnapshot "home" twoVersions) 30000 ⟨[], [], []⟩).run [.publishAll]
    (b.dispatch (.occurring .motionDetected 1 none)).2 = .delivered 0 ∧
      ∃ e ∈ b.entities, e.isCamera = true ∧ e.info.systemId = 2 ∧ e.info.deviceSerial = "c1" := by
  obtain ⟨-, -, -, hunheard, hcameras⟩ :=
    legacy_systems_unexposed "home" twoVersions 30000 ⟨[], [], []⟩ [.publishAll]
  have hlegacy : ¬twoVersions.Exposes 1 := by
    rintro ⟨entry, hentry, hversion⟩
    obtain rfl : _ = entry := Option.some.inj hentry
    exact hversion rfl
  exact ⟨congrArg Prod.snd (hunheard (.occurring .motionDetected 1 none) hlegacy),
    (hcameras 2 _ rfl _ List.mem_cons_self).mpr (by decide)⟩

/-- A system of version 4 is exposed: its entities are registered and announced, and its events are
delivered. -/
theorem later_version_exposed :
    let b := (setup (.ofSnapshot "home" twoVersions) 30000 ⟨[], [], []⟩).run [.publishAll]
    Snapshot.ofText? twoVersions.toJson.render = .ok twoVersions ∧
    b.session.version? 2 = some 4 ∧
    b.entities.map (fun e => (e.info.systemId, e.info.uniqueId)) =
      [(2, "c1-motion"), (2, "c1-camera")] ∧
    b.outbox.map (·.change.uniqueId) = ["c1-motion", "c1-camera"] ∧
    (b.dispatch (.occurring .motionDetected 2 none)).2 = .delivered 1 := by
  decide +kernel

end Bridge

end AlarmBridge
