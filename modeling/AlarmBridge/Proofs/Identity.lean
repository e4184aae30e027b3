import AlarmBridge.Mqtt
import AlarmBridge.Proofs.Bridge.Heard
import AlarmBridge.Proofs.Bridge.Registered
import Mathlib.Data.List.Nodup
import Mathlib.Data.List.TFAE
import Mathlib.Tactic.TFAE

/-! The unique ids of entities.  An id is the serial of a device and a suffix that tells what the
entity shows of the device, and does not tell the system.  So two entities share an id exactly if
they show the same of devices of one serial in two systems, or if the serial behind one is the id of
the other; and exactly where no two do, every entity is found by its id. -/

set_option autoImplicit false

namespace AlarmBridge

/-- What is put after the serial in the unique id of an entity, if anything is. -/
def Role.suffix? : Role → Option String
  | .polled .triggered => none
  | .polled .lowBattery => some "battery"
  | .momentary kind => some kind.suffix
  | .camera _ => some "camera"

/-- The unique id that a serial and a suffix come to. -/
def EntityInfo.idOf (serial : String) : Option String → String
  | none => serial
  | some suffix => s!"{serial}-{suffix}"

/-- An id with a suffix tells the suffix, which has no dash, and the serial before the last dash. -/
theorem EntityInfo.idOf_some_inj {a b x y : String} (hx : '-' ∉ x.toList) (hy : '-' ∉ y.toList)
    (h : idOf a (some x) = idOf b (some y)) : a = b ∧ x = y := by
  have hlist : a.toList ++ '-' :: x.toList = b.toList ++ '-' :: y.toList := by
    simpa [idOf, toString] using congrArg String.toList h
  have hlast : ∀ a x : String, '-' ∉ x.toList →
      (a.toList ++ '-' :: x.toList).reverse.takeWhile (· ≠ '-') = x.toList.reverse := by
    intro a x hx
    have hall : ∀ c ∈ x.toList.reverse, decide (c ≠ '-') = true := fun c hc =>
      decide_eq_true fun heq => hx (heq ▸ List.mem_reverse.mp hc)
    rw [List.reverse_append, List.reverse_cons, List.append_assoc,
      List.takeWhile_append_of_pos hall]
    simp
  have hsuffix : x.toList = y.toList := by
    rw [← List.reverse_inj, ← hlast a x hx, ← hlast b y hy, hlist]
  rw [hsuffix] at hlist
  exact ⟨String.toList_inj.mp (List.append_cancel_right hlist), String.toList_inj.mp hsuffix⟩

theorem Role.not_dash_mem_suffix {role : Role} {suffix : String} (h : role.suffix? = some suffix) :
    '-' ∉ suffix.toList := by
  cases role with
  | polled flag => cases flag <;> cases h; decide
  | momentary kind => cases kind <;> cases h <;> decide
  | camera image => cases h; decide

theorem Role.bare_eq_of_suffix?_eq {role role' : Role} (h : role.suffix? = role'.suffix?) :
    role.bare = role'.bare := by
  rcases role with (_ | _) | (_ | _) | image <;> rcases role' with (_ | _) | (_ | _) | image' <;>
    simp_all [suffix?, MomentaryKind.suffix, bare]

namespace Entity

/-- What tells an entity from the others of its session: its system, its device and what it
shows. -/
def origin (e : Entity) : UInt64 × String × Option String :=
  (e.info.systemId, e.info.deviceSerial, e.role.suffix?)

/-- The serial behind an entity without a suffix is that of another with its suffix. -/
def Borrows (e e' : Entity) : Prop :=
  e.role.suffix? = none ∧ e'.role.suffix? ≠ none ∧
    e.info.deviceSerial = EntityInfo.idOf e'.info.deviceSerial e'.role.suffix?

/-- Two entities show the same of devices of one serial in two systems, or the serial behind one is
that of the other with its suffix. -/
def Clashes (e e' : Entity) : Prop :=
  (e.role.suffix? = e'.role.suffix? ∧ e.info.deviceSerial = e'.info.deviceSerial ∧
    e.info.systemId ≠ e'.info.systemId) ∨ e.Borrows e' ∨ e'.Borrows e

/-- The id of an entity is that of its serial and its suffix. -/
def Named (e : Entity) : Prop :=
  e.info.uniqueId = EntityInfo.idOf e.info.deviceSerial e.role.suffix?

variable {e e' : Entity}

theorem isCamera_iff : e.isCamera = true ↔ e.role.bare = .camera none := by
  obtain ⟨info, role, cell⟩ := e
  cases role <;> simp [isCamera, Role.bare]

@[simp] theorem suffix?_bare (role : Role) : role.bare.suffix? = role.suffix? := by
  cases role <;> rfl

@[simp] theorem origin_bare (e : Entity) : e.bare.origin = e.origin := by
  simp [origin, bare]

theorem named_bare : e.bare.Named ↔ e.Named := by
  simp [Named, bare]

/-- Different entities share an id exactly if they clash. -/
theorem uniqueId_eq_iff (he : e.Named) (he' : e'.Named) (hne : e.origin ≠ e'.origin) :
    e.info.uniqueId = e'.info.uniqueId ↔ e.Clashes e' := by
  have hsystem : e.role.suffix? = e'.role.suffix? → e.info.deviceSerial = e'.info.deviceSerial →
      e.info.systemId ≠ e'.info.systemId :=
    fun hsuffix hserial hid => hne (by simp [origin, hid, hserial, hsuffix])
  rw [he, he']
  unfold Clashes Borrows
  cases hsuffix : e.role.suffix? with
  | none =>
    cases hsuffix' : e'.role.suffix? with
    | none =>
      rw [hsuffix, hsuffix'] at hsystem
      simpa [EntityInfo.idOf] using hsystem rfl
    | some suffix' => simp [EntityInfo.idOf]
  | some suffix =>
    cases hsuffix' : e'.role.suffix? with
    | none => simp [EntityInfo.idOf, eq_comm]
    | some suffix' =>
      rw [hsuffix, hsuffix'] at hsystem
      have hparts : EntityInfo.idOf e.info.deviceSerial (some suffix) =
            EntityInfo.idOf e'.info.deviceSerial (some suffix') ↔
          some suffix = some suffix' ∧ e.info.deviceSerial = e'.info.deviceSerial := by
        constructor
        · intro h
          obtain ⟨hserial, rfl⟩ := EntityInfo.idOf_some_inj (Role.not_dash_mem_suffix hsuffix)
            (Role.not_dash_mem_suffix hsuffix') h
          exact ⟨rfl, hserial⟩
        · rintro ⟨hsame, hserial⟩
          rw [hsame, hserial]
      rw [hparts]
      tauto

/-- Cameras share an id exactly if they are of devices of one serial. -/
theorem uniqueId_eq_iff_of_isCamera (he : e.Named) (he' : e'.Named) (hcamera : e.isCamera = true)
    (hcamera' : e'.isCamera = true) :
    e.info.uniqueId = e'.info.uniqueId ↔ e.info.deviceSerial = e'.info.deviceSerial := by
  have hsuffix : ∀ e : Entity, e.isCamera = true → e.role.suffix? = some "camera" := by
    intro e h
    rw [← suffix?_bare, isCamera_iff.mp h]
    rfl
  rw [he, he', hsuffix e hcamera, hsuffix e' hcamera']
  have hdash : '-' ∉ "camera".toList := by decide
  exact ⟨fun h => (EntityInfo.idOf_some_inj hdash hdash h).1, fun h => by rw [h]⟩

theorem named_of_mem_ofSensor {systemId : UInt64} {r : SensorRecord} (h : e ∈ ofSensor systemId r) :
    e.Named := by
  rcases List.mem_append.mp h with h | h
  · obtain ⟨deviceClass, -, rfl⟩ := Option.map_eq_some_iff.mp (Option.mem_toList.mp h)
    rfl
  · split at h
    · rw [List.mem_singleton.mp h]
      rfl
    · cases h

theorem pairwise_ofSensor (systemId : UInt64) (r : SensorRecord) :
    (ofSensor systemId r).Pairwise fun e e' => e.origin ≠ e'.origin := by
  unfold ofSensor
  cases r.deviceType.triggeredClass? <;> split <;> simp [origin, triggered, battery, Role.suffix?]

theorem pairwise_momentaryOf (systemId : UInt64) (r : CameraRecord) :
    (momentaryOf systemId r).Pairwise fun e e' => e.origin ≠ e'.origin := by
  unfold momentaryOf
  split <;> simp [origin, momentary, Role.suffix?, MomentaryKind.suffix]

end Entity

namespace Bridge

variable {s : Session}

theorem named_of_mem_entitiesOf {e : Entity} (h : e ∈ entitiesOf s) : e.Named := by
  obtain ⟨system, -, -, ⟨r, -, he⟩ | ⟨r, -, he | rfl⟩⟩ := of_mem_entitiesOf h
  · exact Entity.named_of_mem_ofSensor he
  · obtain ⟨kind, -, rfl⟩ := Entity.mem_momentaryOf.mp he
    rfl
  · rfl

theorem info_of_mem_sensorsOf {system : System} {e : Entity} (h : e ∈ sensorsOf system) :
    e.info.systemId = system.systemId ∧ e.isCamera = false := by
  unfold sensorsOf at h
  split at h
  · cases h
  · rcases List.mem_append.mp h with h | h
    · obtain ⟨r, -, h⟩ := List.mem_flatMap.mp h
      obtain ⟨flag, hrole, hid, -⟩ := Entity.of_mem_ofSensor h
      exact ⟨hid, by rw [Entity.isCamera, hrole]⟩
    · obtain ⟨r, -, h⟩ := List.mem_flatMap.mp h
      obtain ⟨kind, -, rfl⟩ := Entity.mem_momentaryOf.mp h
      exact ⟨rfl, rfl⟩

theorem info_of_mem_camerasOf {system : System} {e : Entity} (h : e ∈ camerasOf system) :
    e.info.systemId = system.systemId ∧ e.isCamera = true := by
  unfold camerasOf at h
  split at h
  · cases h
  · obtain ⟨r, -, rfl⟩ := List.mem_map.mp h
    exact ⟨rfl, rfl⟩

/-- Entities of different serials have different origins, and so have those of different roles. -/
theorem origin_ne {e e' : Entity} (h : e.info.systemId ≠ e'.info.systemId ∨
    e.info.deviceSerial ≠ e'.info.deviceSerial ∨ e.role.bare ≠ e'.role.bare) :
    e.origin ≠ e'.origin := by
  intro heq
  obtain ⟨hid, hserial, hsuffix⟩ : _ ∧ _ ∧ _ := by simpa [Entity.origin] using heq
  rcases h with h | h | h
  · exact h hid
  · exact h hserial
  · exact h (Role.bare_eq_of_suffix?_eq hsuffix)

theorem pairwise_sensorsOf {system : System} (hsensors : system.sensors.Keyed (·.serial))
    (hcameras : system.cameras.Keyed (·.serial)) :
    (sensorsOf system).Pairwise fun e e' => e.origin ≠ e'.origin := by
  have hserial : ∀ e e' : Entity, e.info.deviceSerial ≠ e'.info.deviceSerial →
      e.origin ≠ e'.origin := fun _ _ h => origin_ne (.inr (.inl h))
  unfold sensorsOf
  split
  · exact .nil
  · refine List.pairwise_append.mpr ⟨?_, ?_, fun e he e' he' => ?_⟩
    · refine hsensors.pairwise_flatMap hserial (fun r _ e he => ?_) fun r _ =>
        Entity.pairwise_ofSensor _ r
      obtain ⟨flag, -, -, hserial, -⟩ := Entity.of_mem_ofSensor he
      exact hserial
    · refine hcameras.pairwise_flatMap hserial (fun r _ e he => ?_) fun r _ =>
        Entity.pairwise_momentaryOf _ r
      obtain ⟨kind, -, rfl⟩ := Entity.mem_momentaryOf.mp he
      rfl
    · obtain ⟨r, -, he⟩ := List.mem_flatMap.mp he
      obtain ⟨r', -, he'⟩ := List.mem_flatMap.mp he'
      obtain ⟨flag, hrole, -⟩ := Entity.of_mem_ofSensor he
      obtain ⟨kind, -, rfl⟩ := Entity.mem_momentaryOf.mp he'
      refine origin_ne (.inr (.inr ?_))
      rw [hrole]
      exact nofun

theorem pairwise_camerasOf {system : System} (hcameras : system.cameras.Keyed (·.serial)) :
    (camerasOf system).Pairwise fun e e' => e.origin ≠ e'.origin := by
  unfold camerasOf
  split
  · exact .nil
  · rw [List.map_eq_flatMap]
    refine hcameras.pairwise_flatMap (p := fun e => e.info.deviceSerial)
      (fun _ _ h => origin_ne (.inr (.inl h))) (fun r _ e he => ?_) fun r _ =>
        List.pairwise_singleton _ _
    rw [List.mem_singleton.mp he]
    rfl

/-- No two entities of a session have the same origin. -/
theorem pairwise_entitiesOf (hs : s.Keyed) :
    (entitiesOf s).Pairwise fun e e' => e.origin ≠ e'.origin := by
  have hsystem : ∀ e e' : Entity, e.info.systemId ≠ e'.info.systemId → e.origin ≠ e'.origin :=
    fun _ _ h => origin_ne (.inl h)
  refine List.pairwise_append.mpr ⟨?_, ?_, fun e he e' he' => ?_⟩
  · exact hs.systems.pairwise_flatMap hsystem (fun _ _ _ he => (info_of_mem_sensorsOf he).1)
      fun system h => pairwise_sensorsOf (hs.sensors system h) (hs.cameras system h)
  · exact hs.systems.pairwise_flatMap hsystem (fun _ _ _ he => (info_of_mem_camerasOf he).1)
      fun system h => pairwise_camerasOf (hs.cameras system h)
  · obtain ⟨system, -, he⟩ := List.mem_flatMap.mp he
    obtain ⟨system', -, he'⟩ := List.mem_flatMap.mp he'
    refine origin_ne (.inr (.inr fun hrole => ?_))
    have hcamera := Entity.isCamera_iff.mp (info_of_mem_camerasOf he').2
    have hsensor := Entity.isCamera_iff.mpr (hrole.trans hcamera)
    rw [(info_of_mem_sensorsOf he).2] at hsensor
    cases hsensor

/-- Entities that bear the ids of their origins, no two of them the same. -/
structure Identified (es : List Entity) : Prop where
  named : ∀ e ∈ es, e.Named
  origins : es.Pairwise fun e e' => e.origin ≠ e'.origin

theorem identified_run (hs : s.Keyed) (clearDelay : Nat) (g : Grabber) (steps : List Step) :
    Identified ((setup s clearDelay g).run steps).entities := by
  have hbare : ((setup s clearDelay g).run steps).entities.map Entity.bare =
      (entitiesOf s).map Entity.bare := entities_run_bare s clearDelay g steps
  constructor
  · intro e he
    have hmem : e.bare ∈ (entitiesOf s).map Entity.bare := hbare ▸ List.mem_map_of_mem he
    obtain ⟨ent, hent, hsame⟩ := List.mem_map.mp hmem
    rw [← Entity.named_bare, ← hsame, Entity.named_bare]
    exact named_of_mem_entitiesOf hent
  · have horigins : ∀ es : List Entity, (es.Pairwise fun e e' => e.origin ≠ e'.origin) ↔
        (es.map Entity.bare).Pairwise fun e e' => e.origin ≠ e'.origin := by
      simp [List.pairwise_map]
    rw [horigins, hbare, ← horigins]
    exact pairwise_entitiesOf hs

variable {es : List Entity}

namespace Identified

/-- What holds of every two entities that are named and of different origins. -/
theorem pairwise (h : Identified es) {R : Entity → Entity → Prop}
    (hR : ∀ e e', e.Named → e'.Named → e.origin ≠ e'.origin → R e e') : es.Pairwise R :=
  h.origins.imp_of_mem fun he he' => hR _ _ (h.named _ he) (h.named _ he')

theorem pairwise_iff (h : Identified es) {R S : Entity → Entity → Prop}
    (hRS : ∀ e e', e.Named → e'.Named → e.origin ≠ e'.origin → (R e e' ↔ S e e')) :
    es.Pairwise R ↔ es.Pairwise S := by
  have hboth := h.pairwise hRS
  exact ⟨fun hR => (hboth.and hR).imp fun h => h.1.mp h.2,
    fun hS => (hboth.and hS).imp fun h => h.1.mpr h.2⟩

theorem nodup_info (h : Identified es) : (es.map (·.info)).Nodup := by
  refine List.pairwise_map.mpr (h.pairwise fun e e' he he' hne hinfo => ?_)
  have hlonger : ∀ {serial : String} {suffix : Option String}, suffix ≠ none →
      serial ≠ EntityInfo.idOf serial suffix := by
    intro serial suffix hsome heq
    obtain ⟨suffix, rfl⟩ := Option.ne_none_iff_exists'.mp hsome
    have hlength := congrArg String.length heq
    simp [EntityInfo.idOf, toString] at hlength
    have hdash : "-".length = 1 := rfl
    omega
  rcases (Entity.uniqueId_eq_iff he he' hne).mp (by rw [hinfo]) with
    ⟨-, -, hid⟩ | ⟨-, hsome, hserial⟩ | ⟨-, hsome, hserial⟩
  · exact hid (by rw [hinfo])
  · rw [hinfo] at hserial
    exact hlonger hsome hserial
  · rw [hinfo] at hserial
    exact hlonger hsome hserial

end Identified

/-- Looking for the values at some places finds each of these places exactly if no two of them have
the same value. -/
theorem findIdx?_eq_self_iff {α β : Type} [DecidableEq β] {l : List α} {p : α → Bool} {f : α → β} :
    (∀ (i : Nat) a, l[i]? = some a → p a = true →
        l.findIdx? (fun x => p x && f x = f a) = some i) ↔
      l.Pairwise fun a b => p a = true → p b = true → f a ≠ f b := by
  rw [List.pairwise_iff_getElem]
  constructor
  · intro h i j hi hj hij hpi hpj heq
    have hfirst := h i l[i] (List.getElem?_eq_getElem hi) hpi
    rw [heq, h j l[j] (List.getElem?_eq_getElem hj) hpj] at hfirst
    exact Nat.ne_of_lt hij (Option.some.inj hfirst).symm
  · intro h i a ha hpa
    obtain ⟨hi, rfl⟩ := List.getElem?_eq_some_iff.mp ha
    refine List.findIdx?_eq_some_iff_getElem.mpr ⟨hi, by simp [hpa], fun j hj hother => ?_⟩
    obtain ⟨hpj, hfj⟩ : p l[j] = true ∧ f l[j] = f l[i] := by simpa using hother
    exact h j i (Nat.lt_trans hj hi) hi hj hpj hpa hfj

theorem stateTopic_injective (topicBase : String) :
    Function.Injective (Mqtt.stateTopic topicBase) := by
  intro id id' h
  have hlist := congrArg String.toList h
  simp only [Mqtt.stateTopic, toString, String.toList_append, List.append_assoc] at hlist
  exact String.toList_inj.mp (List.append_cancel_right (List.append_cancel_left
    (List.append_cancel_left hlist)))

/-- Of every session and at every moment: two entities share an id exactly if they clash.  Exactly
where no two do, the ids are distinct, every entity is found by its id, a publisher knows every
entity, and no two have one topic.  Every camera is found by its id exactly if no two are of devices
of one serial. -/
theorem unique_ids_iff_no_clash (entryId : String) (first : Snapshot) (clearDelay : Nat)
    (g : Grabber) (steps : List Step) (topicBase : String) :
    let b := (setup (.ofSnapshot entryId first) clearDelay g).run steps
    (b.entities.Pairwise fun e e' => e.info.uniqueId = e'.info.uniqueId ↔ e.Clashes e') ∧
    List.TFAE [
      b.entities.Pairwise fun e e' => ¬e.Clashes e',
      (b.entities.map (·.info.uniqueId)).Nodup,
      ∀ (i : Nat) e, b.entities[i]? = some e → b.entity? e.info.uniqueId = some i,
      ∀ e ∈ b.entities, (Mqtt.Publisher.of topicBase (b.entities.map (·.info))).entities.get?
        e.info.uniqueId = some e.info,
      (b.entities.map (Mqtt.stateTopic topicBase ·.info.uniqueId)).Nodup] ∧
    ((∀ (i : Nat) e, b.entities[i]? = some e → e.isCamera = true →
        b.camera? e.info.uniqueId = some i) ↔
      b.entities.Pairwise fun e e' => e.isCamera = true → e'.isCamera = true →
        e.info.deviceSerial ≠ e'.info.deviceSerial) := by
  intro b
  have hidentified : Identified b.entities :=
    identified_run (Session.keyed_ofSnapshot entryId first) clearDelay g steps
  refine ⟨hidentified.pairwise fun e e' => Entity.uniqueId_eq_iff, ?_, ?_⟩
  · tfae_have 1 ↔ 2 := by
      rw [List.Nodup, List.pairwise_map]
      exact hidentified.pairwise_iff fun e e' he he' hne =>
        not_congr (Entity.uniqueId_eq_iff he he' hne).symm
    tfae_have 2 ↔ 3 := by
      have hfound := findIdx?_eq_self_iff (l := b.entities) (p := fun _ => true)
        (f := fun e => e.info.uniqueId)
      rw [List.Nodup, List.pairwise_map]
      simpa [entity?] using hfound.symm
    tfae_have 2 ↔ 4 := by
      have hkept : (∀ info ∈ b.entities.map (·.info),
          (Roster.ofList EntityInfo.uniqueId (b.entities.map (·.info))).get? info.uniqueId =
            some info) ↔ _ := Roster.get?_ofList_self_iff
      rw [← List.nodup_map_iff_inj_on hidentified.nodup_info, List.map_map] at hkept
      refine Iff.trans hkept.symm ?_
      exact List.forall_mem_map
    tfae_have 2 ↔ 5 := by
      rw [← List.nodup_map_iff (stateTopic_injective topicBase), List.map_map]
      rfl
    tfae_finish
  · refine findIdx?_eq_self_iff.trans (hidentified.pairwise_iff fun e e' he he' hne => ?_)
    refine imp_congr_right fun hcamera => imp_congr_right fun hcamera' => not_congr ?_
    exact Entity.uniqueId_eq_iff_of_isCamera he he' hcamera hcamera'

/-- Two systems with a camera of one serial, and in the first a sensor whose serial is the camera's
id. -/
def sharedSerials : Snapshot :=
  let hall : CameraRecord := ⟨"c1", "Hall", .camera, "online", true, true, true, true⟩
  ⟨"token", [⟨1, 3, .off, [⟨"c1-camera", "Door", .entry, false, false⟩], [hall]⟩,
    ⟨2, 3, .off, [], [hall]⟩]⟩

/-- Three of its six entities have the id of another: neither the camera of the second system nor,
by looking for an entity, any camera is found, and a publisher knows three. -/
theorem ids_repeat_sharedSerials :
    let b := setup (.ofSnapshot "home" sharedSerials) 30000 ⟨[], [], []⟩
    Snapshot.ofText? sharedSerials.toJson.render = .ok sharedSerials ∧
    b.entities.map (·.info.uniqueId) =
      ["c1-camera", "c1-camera-battery", "c1-motion", "c1-motion", "c1-camera", "c1-camera"] ∧
    ¬(b.entities.map (·.info.uniqueId)).Nodup ∧
    b.entity? "c1-camera" = some 0 ∧ b.camera? "c1-camera" = some 4 ∧
    (Mqtt.Publisher.of "home" (b.entities.map (·.info))).entities.entries.length = 3 ∧
    ¬(b.entities.map (Mqtt.stateTopic "home" ·.info.uniqueId)).Nodup := by
  decide +kernel

end Bridge

end AlarmBridge
