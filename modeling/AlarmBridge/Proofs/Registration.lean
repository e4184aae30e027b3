import AlarmBridge.Proofs.Exposure
import AlarmBridge.Proofs.Identity
import AlarmBridge.Proofs.Utf8

/-! What a dump calls for.  Of each system the last entry counts, and of each device the last record
in that entry.  System by system, by their ids, come the sensors, first those of sensor records and
then those of cameras, each by their serials; after them, in the same order, the cameras.  These and
no others are registered, with the states that the records give them. -/

set_option autoImplicit false

namespace AlarmBridge

/-- The values that are the last of their keys, each once and in ascending order of the keys. -/
structure LastOfEach {κ α : Type} [DecidableEq κ] (below : κ → κ → Prop) (key : α → κ)
    (vs kept : List α) : Prop where
  ascending : kept.Pairwise fun v w => below (key v) (key w)
  mem_iff : ∀ v, v ∈ kept ↔ (vs.filter (key · = key v)).getLast? = some v

namespace Roster

variable {κ α β : Type} [Ord κ]

theorem insertEntry_map (f : α → β) (k : κ) (v : α) (es : List (κ × α)) :
    insertEntry k (f v) (es.map fun e => (e.1, f e.2)) =
      (insertEntry k v es).map fun e => (e.1, f e.2) := by
  induction es with
  | nil => rfl
  | cons e es ih => cases h : compare k e.1 <;> simp [insertEntry, h, ih]

variable [Std.TransOrd κ]

/-- A roster of values made of others under the same keys is made of the roster of these. -/
theorem values_ofList_map (f : α → β) (key : β → κ) (vs : List α) :
    (ofList key (vs.map f)).values = (ofList (fun v => key (f v)) vs).values.map f := by
  have hentries :
      ∀ (r : Roster κ β) (r' : Roster κ α), r.entries = r'.entries.map (fun e => (e.1, f e.2)) →
        ((vs.map f).foldl (fun r v => r.insert (key v) v) r).entries =
          (vs.foldl (fun r v => r.insert (key (f v)) v) r').entries.map fun e => (e.1, f e.2) := by
    induction vs with
    | nil => exact fun _ _ h => h
    | cons v vs ih =>
      intro r r' h
      refine ih _ _ ?_
      show insertEntry _ _ r.entries = _
      rw [h]
      exact insertEntry_map f _ v _
  unfold values ofList
  rw [hentries empty empty rfl, List.map_map, List.map_map]
  rfl

variable [Std.LawfulEqOrd κ] [DecidableEq κ]

theorem lastOfEach_values_ofList {below : κ → κ → Prop}
    (hbelow : ∀ j k, compare j k = .lt → below j k) (key : α → κ) (vs : List α) :
    LastOfEach below key vs (ofList key vs).values where
  ascending := by
    have hkeyed := keyed_ofList key vs
    refine List.pairwise_map.mpr ((ofList key vs).ascending.imp_of_mem fun {e e'} he he' h => ?_)
    rw [hkeyed e he, hkeyed e' he']
    exact hbelow _ _ h
  mem_iff v := by
    rw [← get?_ofList]
    exact ⟨(keyed_ofList key vs).get?_of_mem_values, mem_values_of_get?⟩

end Roster

/-- Serials in the order of their bytes. -/
def serialBelow (a b : String) : Prop := Text.encode a.toList < Text.encode b.toList

theorem serialBelow_of_compare {a b : String} (h : compare a b = .lt) : serialBelow a b :=
  have hlt : a < b := compareOfLessAndEq_eq_lt.mp h
  Text.encode_lt_iff.mpr hlt

/-- What is registered of an entity: its system, its id, what it shows, and its first state. -/
structure Registration where
  systemId : UInt64
  uniqueId : String
  role : Role
  isOn : Bool
deriving Repr, DecidableEq, Inhabited

theorem EntityInfo.uniqueId_withSuffix (info : EntityInfo) (suffix : String) :
    (info.withSuffix suffix).uniqueId = info.uniqueId ++ ("-" ++ suffix) := String.append_assoc

def Entity.registration (e : Entity) : Registration :=
  ⟨e.info.systemId, e.info.uniqueId, e.role, e.cell.value⟩

namespace DeviceType

/-- The types whose records call for a sensor of their triggered flag, by their codes. -/
def triggeredTypes : List DeviceType :=
  [motion, entry, glassBreak, carbonMonoxide, smoke, leak, siren]

/-- The types whose records call for a sensor of their battery, by their codes. -/
def batteryTypes : List DeviceType :=
  [keypad, motion, entry, glassBreak, carbonMonoxide, smoke, leak, temperature, siren, lockKeypad]

theorem isSome_triggeredClass?_iff (t : DeviceType) :
    t.triggeredClass?.isSome ↔ t ∈ triggeredTypes := by
  cases t <;> decide

theorem mem_batteryPowered_iff (t : DeviceType) : t ∈ batteryPowered ↔ t ∈ batteryTypes := by
  cases t <;> decide

end DeviceType

namespace SensorRecord

/-- What a sensor record calls for: a sensor for its triggered flag, and one for its battery. -/
def registrations (systemId : UInt64) (r : SensorRecord) : List Registration :=
  (if r.deviceType ∈ DeviceType.triggeredTypes then
    [⟨systemId, r.serial, .polled .triggered, r.triggered⟩] else []) ++
    if r.deviceType ∈ DeviceType.batteryTypes then
      [⟨systemId, r.serial ++ "-battery", .polled .lowBattery, r.lowBattery⟩]
    else []

theorem map_registration_ofSensor (systemId : UInt64) (r : SensorRecord) :
    (Entity.ofSensor systemId r).map Entity.registration = r.registrations systemId := by
  unfold Entity.ofSensor registrations
  simp only [← DeviceType.isSome_triggeredClass?_iff, ← DeviceType.mem_batteryPowered_iff]
  rw [List.map_append]
  congr 1
  · cases r.deviceType.triggeredClass? <;> rfl
  · split
    · simp only [List.map_cons, List.map_nil, Entity.registration, Entity.battery,
        EntityInfo.uniqueId_withSuffix]
      rfl
    · rfl

end SensorRecord

namespace CameraRecord

/-- The sensors that a camera record calls for: one for motion, and at a doorbell one for its
bell. -/
def registrations (systemId : UInt64) (r : CameraRecord) : List Registration :=
  ⟨systemId, r.serial ++ "-motion", .momentary .motion, false⟩ ::
    if r.cameraType = .doorbell then
      [⟨systemId, r.serial ++ "-doorbell", .momentary .doorbell, false⟩]
    else []

/-- The camera that a record calls for. -/
def cameraRegistration (systemId : UInt64) (r : CameraRecord) : Registration :=
  ⟨systemId, r.serial ++ "-camera", .camera none, r.status = "online" && r.subscriptionEnabled⟩

theorem map_registration_momentaryOf (systemId : UInt64) (r : CameraRecord) :
    (Entity.momentaryOf systemId r).map Entity.registration = r.registrations systemId := by
  unfold Entity.momentaryOf registrations isDoorbell
  by_cases hdoorbell : r.cameraType = .doorbell <;>
  · simp only [hdoorbell, decide_true, decide_false, Bool.false_eq_true, if_true, if_false,
      List.map_cons, List.map_nil, Entity.registration, Entity.momentary,
      EntityInfo.uniqueId_withSuffix]
    rfl

theorem registration_cameraOf (systemId : UInt64) (r : CameraRecord) :
    (Bridge.cameraOf systemId r).registration = r.cameraRegistration systemId := by
  simp only [Entity.registration, Bridge.cameraOf, EntityInfo.uniqueId_withSuffix]
  rfl

end CameraRecord

/-- The entries of a dump that are not of legacy base stations. -/
def exposedEntries (entries : List SystemSnapshot) : List SystemSnapshot :=
  entries.filter fun entry => entry.version ≠ 2

theorem flatMap_exposedEntries {β : Type} (f : SystemSnapshot → List β)
    (entries : List SystemSnapshot) : (exposedEntries entries).flatMap f =
      entries.flatMap fun entry => if entry.version = 2 then [] else f entry := by
  induction entries with
  | nil => rfl
  | cons entry entries ih =>
    unfold exposedEntries at *
    by_cases hversion : entry.version = 2
    · simp [hversion, ← ih]
    · simp [hversion, ← ih]

namespace Bridge

variable (sensors : SystemSnapshot → List SensorRecord)
  (cameras : SystemSnapshot → List CameraRecord)

/-- What the records of some entries call for, but for cameras. -/
def sensorsCalledFor (entries : List SystemSnapshot) : List Registration :=
  entries.flatMap fun entry =>
    (sensors entry).flatMap (·.registrations entry.systemId) ++
      (cameras entry).flatMap (·.registrations entry.systemId)

/-- The cameras that the records of some entries call for. -/
def camerasCalledFor (entries : List SystemSnapshot) : List Registration :=
  entries.flatMap fun entry => (cameras entry).map (·.cameraRegistration entry.systemId)

theorem map_registration_sensorsOf (entry : SystemSnapshot) :
    (sensorsOf (.ofSnapshot entry)).map Entity.registration =
      if entry.version = 2 then [] else
        (System.ofSnapshot entry).sensors.values.flatMap (·.registrations entry.systemId) ++
          (System.ofSnapshot entry).cameras.values.flatMap (·.registrations entry.systemId) := by
  have hlegacy : (System.ofSnapshot entry).isLegacy = decide (entry.version = 2) := rfl
  unfold sensorsOf
  rw [hlegacy]
  by_cases hversion : entry.version = 2
  · simp [hversion]
  · simp only [hversion, decide_false, Bool.false_eq_true, if_false, List.map_append,
      List.map_flatMap, SensorRecord.map_registration_ofSensor,
      CameraRecord.map_registration_momentaryOf]
    rfl

theorem map_registration_camerasOf (entry : SystemSnapshot) :
    (camerasOf (.ofSnapshot entry)).map Entity.registration =
      if entry.version = 2 then [] else
        (System.ofSnapshot entry).cameras.values.map (·.cameraRegistration entry.systemId) := by
  have hlegacy : (System.ofSnapshot entry).isLegacy = decide (entry.version = 2) := rfl
  unfold camerasOf
  rw [hlegacy]
  by_cases hversion : entry.version = 2
  · simp [hversion]
  · simp only [hversion, decide_false, Bool.false_eq_true, if_false, List.map_map]
    exact List.map_congr_left fun r _ => r.registration_cameraOf entry.systemId

/-- The cameras among the entities of a session are those that come last. -/
theorem filter_isCamera_entitiesOf (s : Session) :
    (entitiesOf s).filter (·.isCamera) = s.systems.values.flatMap camerasOf := by
  have hsensors : (s.systems.values.flatMap sensorsOf).filter (·.isCamera) = [] := by
    refine List.filter_eq_nil_iff.mpr fun e he => ?_
    obtain ⟨system, -, he⟩ := List.mem_flatMap.mp he
    simp [(info_of_mem_sensorsOf he).2]
  have hcameras : (s.systems.values.flatMap camerasOf).filter (·.isCamera) =
      s.systems.values.flatMap camerasOf := by
    refine List.filter_eq_self.mpr fun e he => ?_
    obtain ⟨system, -, he⟩ := List.mem_flatMap.mp he
    exact (info_of_mem_camerasOf he).2
  rw [entitiesOf, List.filter_append, hsensors, hcameras, List.nil_append]

/-- Of every first dump, whatever it repeats and in whatever order: the entities registered are
exactly those that the last records in the last entries of the systems call for, legacy ones left
out; they are in ascending order of the system ids and, in each system, of the bytes of the serials,
the sensors of all systems before their cameras; and each starts in the state that its record gives
it.  The cameras among them are the cameras called for. -/
theorem registered_are_called_for (entryId : String) (first : Snapshot) (clearDelay : Nat)
    (g : Grabber) :
    let b := setup (.ofSnapshot entryId first) clearDelay g
    ∃ entries sensors cameras,
      LastOfEach (· < ·) SystemSnapshot.systemId first.systems entries ∧
      (∀ entry, LastOfEach serialBelow SensorRecord.serial entry.sensors (sensors entry) ∧
        LastOfEach serialBelow CameraRecord.serial entry.cameras (cameras entry)) ∧
      b.entities.map Entity.registration =
        sensorsCalledFor sensors cameras (exposedEntries entries) ++
          camerasCalledFor cameras (exposedEntries entries) ∧
      (b.entities.filter (·.isCamera)).map Entity.registration =
        camerasCalledFor cameras (exposedEntries entries) := by
  intro b
  let s := Session.ofSnapshot entryId first
  let entries := (Roster.ofList (·.systemId) first.systems).values
  have hvalues : s.systems.values = entries.map System.ofSnapshot :=
    Roster.values_ofList_map System.ofSnapshot (·.systemId) first.systems
  have hcameras : (s.systems.values.flatMap camerasOf).map Entity.registration =
      camerasCalledFor (fun entry => (System.ofSnapshot entry).cameras.values)
        (exposedEntries entries) := by
    rw [camerasCalledFor, flatMap_exposedEntries, hvalues, List.flatMap_map, List.map_flatMap]
    exact List.flatMap_congr fun entry _ => map_registration_camerasOf entry
  have hsensors : (s.systems.values.flatMap sensorsOf).map Entity.registration =
      sensorsCalledFor (fun entry => (System.ofSnapshot entry).sensors.values)
        (fun entry => (System.ofSnapshot entry).cameras.values) (exposedEntries entries) := by
    rw [sensorsCalledFor, flatMap_exposedEntries, hvalues, List.flatMap_map, List.map_flatMap]
    exact List.flatMap_congr fun entry _ => map_registration_sensorsOf entry
  refine ⟨entries, fun entry => (System.ofSnapshot entry).sensors.values,
    fun entry => (System.ofSnapshot entry).cameras.values, ?_, fun entry => ⟨?_, ?_⟩, ?_, ?_⟩
  · exact Roster.lastOfEach_values_ofList (fun _ _ => Std.compare_eq_lt.mp) _ _
  · exact Roster.lastOfEach_values_ofList (fun _ _ => serialBelow_of_compare) _ _
  · exact Roster.lastOfEach_values_ofList (fun _ _ => serialBelow_of_compare) _ _
  · rw [← hcameras, ← hsensors, ← List.map_append]
    exact List.map_map
  · rw [← hcameras, ← filter_isCamera_entitiesOf]
    show (((entitiesOf s).map _).filter _).map _ = _
    rw [List.filter_map, List.map_map]
    rfl

end Bridge

end AlarmBridge
