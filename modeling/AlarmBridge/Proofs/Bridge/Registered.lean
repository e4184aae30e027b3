import AlarmBridge.Proofs.Bridge.Heard
import AlarmBridge.Proofs.Records

/-! The entities that a session registers.  Each comes from a record of a sensor or a camera of a
system whose devices are not left out, carries the id of the system and the serial of the record,
and starts with the state that the record gives it, or off. -/

set_option autoImplicit false

namespace AlarmBridge

namespace Entity

variable {systemId : UInt64} {e : Entity}

theorem of_mem_ofSensor {r : SensorRecord} (h : e ∈ ofSensor systemId r) :
    ∃ flag, e.role = .polled flag ∧ e.info.systemId = systemId ∧ e.info.deviceSerial = r.serial ∧
      e.cell = .new (flag.read r) := by
  rcases List.mem_append.mp h with h | h
  · obtain ⟨deviceClass, -, rfl⟩ := Option.map_eq_some_iff.mp (Option.mem_toList.mp h)
    exact ⟨.triggered, rfl, rfl, rfl, rfl⟩
  · split at h
    · rw [List.mem_singleton.mp h]
      exact ⟨.lowBattery, rfl, rfl, rfl, rfl⟩
    · cases h

theorem mem_momentaryOf {r : CameraRecord} :
    e ∈ momentaryOf systemId r ↔
      ∃ kind, (kind = .doorbell → r.isDoorbell = true) ∧ e = momentary systemId r kind := by
  unfold momentaryOf
  rw [List.mem_cons]
  constructor
  · rintro (rfl | h)
    · exact ⟨.motion, nofun, rfl⟩
    · split at h
      · next hdoorbell => exact ⟨.doorbell, fun _ => hdoorbell, List.mem_singleton.mp h⟩
      · cases h
  · rintro ⟨kind, hdoorbell, rfl⟩
    cases kind with
    | motion => exact .inl rfl
    | doorbell =>
      rw [if_pos (hdoorbell rfl)]
      exact .inr (List.mem_singleton_self _)

end Entity

namespace Bridge

variable {s : Session} {e : Entity}

/-- An entity of a session comes from a device of a system that is not left out. -/
theorem of_mem_entitiesOf (h : e ∈ entitiesOf s) :
    ∃ system ∈ s.systems.values, system.isLegacy = false ∧
      ((∃ r ∈ system.sensors.values, e ∈ Entity.ofSensor system.systemId r) ∨
        ∃ r ∈ system.cameras.values,
          e ∈ Entity.momentaryOf system.systemId r ∨ e = cameraOf system.systemId r) := by
  rcases List.mem_append.mp h with h | h
  · obtain ⟨system, hsystem, h⟩ := List.mem_flatMap.mp h
    unfold sensorsOf at h
    split at h
    · cases h
    · next hlegacy =>
      refine ⟨system, hsystem, Bool.eq_false_iff.mpr hlegacy, ?_⟩
      rcases List.mem_append.mp h with h | h
      · exact .inl (List.mem_flatMap.mp h)
      · obtain ⟨r, hr, h⟩ := List.mem_flatMap.mp h
        exact .inr ⟨r, hr, .inl h⟩
  · obtain ⟨system, hsystem, h⟩ := List.mem_flatMap.mp h
    unfold camerasOf at h
    split at h
    · cases h
    · next hlegacy =>
      obtain ⟨r, hr, rfl⟩ := List.mem_map.mp h
      exact ⟨system, hsystem, Bool.eq_false_iff.mpr hlegacy, .inr ⟨r, hr, .inr rfl⟩⟩

/-- The entities of a session start with a value, at version 0. -/
theorem cell_of_mem_entitiesOf (h : e ∈ entitiesOf s) : e.cell = .new e.cell.value := by
  obtain ⟨system, -, -, ⟨r, -, he⟩ | ⟨r, -, he | rfl⟩⟩ := of_mem_entitiesOf h
  · obtain ⟨flag, -, -, -, hcell⟩ := Entity.of_mem_ofSensor he
    rw [hcell]
    rfl
  · obtain ⟨kind, -, rfl⟩ := Entity.mem_momentaryOf.mp he
    rfl
  · rfl

/-- Cameras start without an image. -/
theorem image?_of_mem_entitiesOf (h : e ∈ entitiesOf s) : e.image? = none := by
  obtain ⟨system, -, -, ⟨r, -, he⟩ | ⟨r, -, he | rfl⟩⟩ := of_mem_entitiesOf h
  · obtain ⟨flag, hrole, -⟩ := Entity.of_mem_ofSensor he
    rw [Entity.image?, hrole]
  · obtain ⟨kind, -, rfl⟩ := Entity.mem_momentaryOf.mp he
    rfl
  · rfl

/-- The session has the record of every entity that follows one. -/
theorem reading?_of_mem_entitiesOf (hs : s.Keyed) (h : e ∈ entitiesOf s)
    (hfollows : e.isMomentary = false) : ∃ value, e.reading? s = some value := by
  obtain ⟨system, hsystem, -, hdevice⟩ := of_mem_entitiesOf h
  have hget : s.systems.get? system.systemId = some system := hs.systems.get?_of_mem_values hsystem
  rcases hdevice with ⟨r, hr, he⟩ | ⟨r, hr, he | rfl⟩
  · obtain ⟨flag, hrole, hid, hserial, -⟩ := Entity.of_mem_ofSensor he
    have hrecord : s.sensor? system.systemId r.serial = some r := by
      rw [Session.sensor?, hget]
      exact (hs.sensors system hsystem).get?_of_mem_values hr
    exact ⟨flag.read r, by rw [Entity.reading?, hrole, hid, hserial, hrecord]; rfl⟩
  · obtain ⟨kind, -, rfl⟩ := Entity.mem_momentaryOf.mp he
    cases hfollows
  · have hrecord : s.camera? system.systemId r.serial = some r := by
      rw [Session.camera?, hget]
      exact (hs.cameras system hsystem).get?_of_mem_values hr
    exact ⟨r.isAvailable, congrArg (Option.map CameraRecord.isAvailable) hrecord⟩

/-- The entities that are set up are those of the session, announced under their ids. -/
theorem getElem?_setup {clearDelay : Nat} {g : Grabber} {i : Nat}
    (he : (setup s clearDelay g).entities[i]? = some e) :
    ∃ ent ∈ entitiesOf s, e = { ent with cell := ent.cell.announce ent.info.uniqueId } := by
  obtain ⟨ent, hent, rfl⟩ := Option.map_eq_some_iff.mp (List.getElem?_map.symm.trans he)
  exact ⟨ent, List.mem_of_getElem? hent, rfl⟩

theorem entities_setup_bare (s : Session) (clearDelay : Nat) (g : Grabber) :
    (setup s clearDelay g).bare.entities = (entitiesOf s).map Entity.bare := by
  show ((entitiesOf s).map _).map Entity.bare = _
  rw [List.map_map]
  rfl

/-- At every moment the entities are those of the session, but for what happens to them. -/
theorem entities_run_bare (s : Session) (clearDelay : Nat) (g : Grabber) (steps : List Step) :
    ((setup s clearDelay g).run steps).bare.entities = (entitiesOf s).map Entity.bare :=
  (identities_run _ steps).trans (entities_setup_bare s clearDelay g)

end Bridge

end AlarmBridge
