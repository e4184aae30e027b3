import AlarmBridge.Proofs.Roster
import AlarmBridge.Session

/-! The records of a session.  Taking over a dump puts in place of each record that the session has
the last one of its serial in the entries of its system, and leaves the rest; a new session holds
what its dump says last of each device of the systems it keeps. -/

set_option autoImplicit false

namespace AlarmBridge

namespace Snapshot

/-- The last record of a sensor in a dump, over all entries of its system. -/
def sensor? (s : Snapshot) (systemId : UInt64) (serial : String) : Option SensorRecord :=
  (((s.systems.filter (·.systemId = systemId)).flatMap (·.sensors)).filter
    (·.serial = serial)).getLast?

/-- The last record of a camera in a dump, over all entries of its system. -/
def camera? (s : Snapshot) (systemId : UInt64) (serial : String) : Option CameraRecord :=
  (((s.systems.filter (·.systemId = systemId)).flatMap (·.cameras)).filter
    (·.serial = serial)).getLast?

end Snapshot

theorem System.foldl_apply (entries : List SystemSnapshot) (system : System) :
    (entries.foldl System.apply system).sensors =
        (entries.flatMap (·.sensors)).foldl (fun r d => r.replace d.serial d) system.sensors ∧
      (entries.foldl System.apply system).cameras =
        (entries.flatMap (·.cameras)).foldl (fun r d => r.replace d.serial d) system.cameras := by
  induction entries generalizing system with
  | nil => exact ⟨rfl, rfl⟩
  | cons entry entries ih =>
    obtain ⟨hsensors, hcameras⟩ := ih (system.apply entry)
    rw [List.foldl_cons, hsensors, hcameras, List.flatMap_cons, List.flatMap_cons,
      List.foldl_append, List.foldl_append]
    exact ⟨rfl, rfl⟩

namespace Session

theorem get?_foldl_applySystem (entries : List SystemSnapshot) (s : Session) (systemId : UInt64) :
    (entries.foldl applySystem s).systems.get? systemId =
      (s.systems.get? systemId).map fun system =>
        (entries.filter (·.systemId = systemId)).foldl System.apply system := by
  induction entries generalizing s with
  | nil => simp
  | cons entry entries ih =>
    rw [List.foldl_cons, ih, applySystem, Roster.get?_modify]
    by_cases hid : systemId = entry.systemId
    · simp [hid, Option.map_map, Function.comp_def]
    · simp [hid, Ne.symm hid]

/-- The systems of a session take over their entries of a dump, in turn. -/
theorem get?_apply (s : Session) (next : Snapshot) (systemId : UInt64) :
    (s.apply next).systems.get? systemId =
      (s.systems.get? systemId).map fun system =>
        (next.systems.filter (·.systemId = systemId)).foldl System.apply system := by
  unfold apply
  simp only
  split <;> exact get?_foldl_applySystem _ _ _

/-- Taking over a dump puts what it says last of a device in place of the record of the device. -/
theorem devices_apply (s : Session) (next : Snapshot) (systemId : UInt64) (serial : String) :
    (s.apply next).sensor? systemId serial =
        (s.sensor? systemId serial).map (fun old => (next.sensor? systemId serial).getD old) ∧
      (s.apply next).camera? systemId serial =
        (s.camera? systemId serial).map fun old => (next.camera? systemId serial).getD old := by
  unfold sensor? camera?
  rw [get?_apply]
  cases s.systems.get? systemId with
  | none => exact ⟨rfl, rfl⟩
  | some system =>
    obtain ⟨hsensors, hcameras⟩ :=
      System.foldl_apply (next.systems.filter (·.systemId = systemId)) system
    constructor
    · rw [Option.map_some, Option.bind_some, hsensors, Roster.get?_foldl_replace]
      rfl
    · rw [Option.map_some, Option.bind_some, hcameras, Roster.get?_foldl_replace]
      rfl

theorem get?_setState (s : Session) (id : UInt64) (state : ArmState) (systemId : UInt64) :
    (s.setState id state).systems.get? systemId =
      if systemId = id then (s.systems.get? systemId).map fun system =>
        { system with state := state }
      else s.systems.get? systemId :=
  Roster.get?_modify _ _ _ _

/-- Arming a system leaves the records of its devices. -/
theorem devices_setState (s : Session) (id : UInt64) (state : ArmState) (systemId : UInt64)
    (serial : String) :
    (s.setState id state).sensor? systemId serial = s.sensor? systemId serial ∧
      (s.setState id state).camera? systemId serial = s.camera? systemId serial := by
  unfold sensor? camera?
  rw [get?_setState]
  split
  · cases s.systems.get? systemId <;> exact ⟨rfl, rfl⟩
  · exact ⟨rfl, rfl⟩

theorem get?_ofSnapshot (entryId : String) (s : Snapshot) (systemId : UInt64) :
    (ofSnapshot entryId s).systems.get? systemId =
      ((s.systems.filter (·.systemId = systemId)).getLast?).map System.ofSnapshot := by
  have hid : (fun system : System => decide (system.systemId = systemId)) ∘ System.ofSnapshot =
      fun entry => decide (entry.systemId = systemId) := rfl
  show (Roster.ofList _ _).get? systemId = _
  rw [Roster.get?_ofList, List.filter_map, List.getLast?_map, hid]

/-- The last entry of a system says last what the dump says of the devices in it. -/
theorem getLast?_flatMap_filter {α : Type} {entries : List SystemSnapshot} {entry : SystemSnapshot}
    (h : entries.getLast? = some entry) {devices : SystemSnapshot → List α} {p : α → Bool} {r : α}
    (hr : ((devices entry).filter p).getLast? = some r) :
    ((entries.flatMap devices).filter p).getLast? = some r := by
  obtain ⟨before, rfl⟩ := List.getLast?_eq_some_iff.mp h
  rw [List.flatMap_append, List.filter_append, List.getLast?_append, List.flatMap_singleton, hr]
  rfl

/-- A new session has of a sensor what its dump says last. -/
theorem sensor?_ofSnapshot {entryId : String} {s : Snapshot} {systemId : UInt64} {serial : String}
    {r : SensorRecord} (h : (ofSnapshot entryId s).sensor? systemId serial = some r) :
    s.sensor? systemId serial = some r := by
  unfold sensor? at h
  rw [get?_ofSnapshot] at h
  obtain ⟨system, hsystem, hr⟩ := Option.bind_eq_some_iff.mp h
  obtain ⟨entry, hentry, rfl⟩ := Option.map_eq_some_iff.mp hsystem
  exact getLast?_flatMap_filter hentry ((Roster.get?_ofList _ _ _).symm.trans hr)

theorem camera?_ofSnapshot {entryId : String} {s : Snapshot} {systemId : UInt64} {serial : String}
    {r : CameraRecord} (h : (ofSnapshot entryId s).camera? systemId serial = some r) :
    s.camera? systemId serial = some r := by
  unfold camera? at h
  rw [get?_ofSnapshot] at h
  obtain ⟨system, hsystem, hr⟩ := Option.bind_eq_some_iff.mp h
  obtain ⟨entry, hentry, rfl⟩ := Option.map_eq_some_iff.mp hsystem
  exact getLast?_flatMap_filter hentry ((Roster.get?_ofList _ _ _).symm.trans hr)

/-- Systems stand under their ids and devices under their serials. -/
structure Keyed (s : Session) : Prop where
  systems : s.systems.Keyed (·.systemId)
  sensors : ∀ system ∈ s.systems.values, system.sensors.Keyed (·.serial)
  cameras : ∀ system ∈ s.systems.values, system.cameras.Keyed (·.serial)

theorem keyed_ofSnapshot (entryId : String) (s : Snapshot) : (ofSnapshot entryId s).Keyed := by
  have hsystems : (ofSnapshot entryId s).systems.Keyed (·.systemId) := Roster.keyed_ofList _ _
  have hmade : ∀ system ∈ (ofSnapshot entryId s).systems.values,
      ∃ entry, System.ofSnapshot entry = system := by
    intro system hsystem
    have hget := hsystems.get?_of_mem_values hsystem
    rw [get?_ofSnapshot] at hget
    obtain ⟨entry, -, rfl⟩ := Option.map_eq_some_iff.mp hget
    exact ⟨entry, rfl⟩
  refine ⟨hsystems, ?_, ?_⟩
  · intro system hsystem
    obtain ⟨entry, rfl⟩ := hmade system hsystem
    exact Roster.keyed_ofList _ _
  · intro system hsystem
    obtain ⟨entry, rfl⟩ := hmade system hsystem
    exact Roster.keyed_ofList _ _

end Session

end AlarmBridge
