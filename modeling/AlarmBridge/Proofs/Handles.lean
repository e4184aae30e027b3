import AlarmBridge.Proofs.Bridge.Heard
import AlarmBridge.Proofs.Bridge.Registered
import AlarmBridge.Proofs.Rebuild
import AlarmBridge.Proofs.Shutter

/-! The records behind the entities.  A handle is the place of a record in a session.  What a
session takes over from later dumps puts records in the place of records of the same serial, so
systems and devices stand under their own keys throughout, and what an entity was made for is at
every moment found both at its handle and under the ids that the entity carries. -/

set_option autoImplicit false

namespace AlarmBridge

open Bridge (Step)

/-- Where a record stands in a session: the place of its system, and its own among the devices
there. -/
structure Handle where
  system : Nat
  device : Nat

/-- `after` is the system `before` with other records of the same devices. -/
structure System.Kept (before after : System) : Prop where
  systemId : after.systemId = before.systemId
  sensorKeys : after.sensors.keys = before.sensors.keys
  cameraKeys : after.cameras.keys = before.cameras.keys
  sensors : before.sensors.Keyed (·.serial) → after.sensors.Keyed (·.serial)
  cameras : before.cameras.Keyed (·.serial) → after.cameras.Keyed (·.serial)

theorem System.kept_apply (s : System) (next : SystemSnapshot) : s.Kept (s.apply next) where
  systemId := rfl
  sensorKeys := Roster.keys_foldl_replace _ _ _
  cameraKeys := Roster.keys_foldl_replace _ _ _
  sensors h := h.foldl_replace next.sensors
  cameras h := h.foldl_replace next.cameras

namespace Session

/-- `after` is the session `before` with other records of the same devices in the same systems. -/
structure Kept (before after : Session) : Prop where
  devices : after.devices = before.devices
  keyed : before.Keyed → after.Keyed

theorem Kept.refl (s : Session) : s.Kept s := ⟨rfl, id⟩

theorem Kept.trans {s1 s2 s3 : Session} (h1 : s1.Kept s2) (h2 : s2.Kept s3) : s1.Kept s3 :=
  ⟨h2.devices.trans h1.devices, fun h => h2.keyed (h1.keyed h)⟩

theorem kept_modify (s : Session) (id : UInt64) {f : System → System}
    (hf : ∀ system : System, system.Kept (f system)) :
    s.Kept { s with systems := s.systems.modify id f } where
  devices := by
    unfold devices Roster.modify
    simp only [List.map_map]
    refine List.map_congr_left fun e _ => ?_
    by_cases hid : e.1 = id
    · simp [hid, (hf e.2).sensorKeys, (hf e.2).cameraKeys]
    · simp [hid]
  keyed h := by
    have hvalue : ∀ system ∈ (s.systems.modify id f).values, ∃ old ∈ s.systems.values,
        system = old ∨ system = f old := by
      intro system hsystem
      obtain ⟨changed, hchanged, rfl⟩ := List.mem_map.mp hsystem
      obtain ⟨e, he, rfl⟩ := List.mem_map.mp hchanged
      refine ⟨e.2, List.mem_map_of_mem he, ?_⟩
      split
      · exact .inr rfl
      · exact .inl rfl
    refine ⟨h.systems.modify id fun system hid => (hf system).systemId.trans hid, ?_, ?_⟩
    · intro system hsystem
      obtain ⟨old, hold, rfl | rfl⟩ := hvalue system hsystem
      · exact h.sensors _ hold
      · exact (hf old).sensors (h.sensors old hold)
    · intro system hsystem
      obtain ⟨old, hold, rfl | rfl⟩ := hvalue system hsystem
      · exact h.cameras _ hold
      · exact (hf old).cameras (h.cameras old hold)

theorem kept_apply (s : Session) (next : Snapshot) : s.Kept (s.apply next) := by
  have hsystems : ∀ (entries : List SystemSnapshot) (s' : Session),
      s'.Kept (entries.foldl applySystem s') := by
    intro entries s'
    refine List.foldlRecOn (motive := s'.Kept) entries applySystem (.refl s') ?_
    exact fun s'' h entry _ => h.trans (kept_modify s'' _ fun system => system.kept_apply entry)
  unfold apply
  simp only
  split
  · exact hsystems _ s
  · have htoken : s.Kept { s with token := next.accessToken } := ⟨rfl, fun h => ⟨h.1, h.2, h.3⟩⟩
    exact htoken.trans (hsystems _ _)

/-- No step changes what devices a session has, or under which keys they stand. -/
theorem kept_after (s : Session) (step : Step) : s.Kept (s.after step) := by
  cases step with
  | apply next => exact kept_apply s next
  | poll text =>
    simp only [after]
    split
    · exact kept_apply s _
    · exact .refl s
  | setState id state => exact kept_modify s id fun _ => ⟨rfl, rfl, rfl, fun h => h, fun h => h⟩
  | _ => exact .refl s

theorem kept_foldl_after (s : Session) (steps : List Step) : s.Kept (steps.foldl after s) :=
  List.foldlRecOn (motive := s.Kept) steps after (.refl s) fun s' h step _ =>
    h.trans (kept_after s' step)

section

variable {α : Type} (devices : System → Roster String α) (serial : α → String)

/-- The keys under which the record at a handle stands. -/
def keysAt? (s : Session) (h : Handle) : Option (UInt64 × String) :=
  s.systems.entries[h.system]?.bind fun e => (devices e.2).keys[h.device]?.map (e.1, ·)

/-- The record at a handle is the one of a system id and a serial, and says so itself. -/
def HoldsAt (s : Session) (h : Handle) (keys : UInt64 × String) : Prop :=
  ∃ system r, s.systems.values[h.system]? = some system ∧
    (devices system).values[h.device]? = some r ∧
    s.systems.get? keys.1 = some system ∧ (devices system).get? keys.2 = some r ∧
    system.systemId = keys.1 ∧ serial r = keys.2

variable {devices serial} {s : Session}

/-- Where systems and devices stand under their own keys, the record at a handle is found under
its. -/
theorem holdsAt_of_keysAt? (hs : s.systems.Keyed (·.systemId))
    (hdevices : ∀ system ∈ s.systems.values, (devices system).Keyed serial) {h : Handle}
    {keys : UInt64 × String} (hkeys : s.keysAt? devices h = some keys) :
    s.HoldsAt devices serial h keys := by
  obtain ⟨⟨id, system⟩, hsystem, hdevice⟩ := Option.bind_eq_some_iff.mp hkeys
  obtain ⟨key, hkey, rfl⟩ := Option.map_eq_some_iff.mp hdevice
  have hvalue : s.systems.values[h.system]? = some system := by
    rw [Roster.values, List.getElem?_map, hsystem]
    rfl
  have hmem : system ∈ s.systems.values := List.mem_of_getElem? hvalue
  have hid : system.systemId = id := hs _ (List.mem_of_getElem? hsystem)
  rw [(hdevices system hmem).keys_eq, List.getElem?_map] at hkey
  obtain ⟨r, hr, rfl⟩ := Option.map_eq_some_iff.mp hkey
  refine ⟨system, r, hvalue, hr, ?_, ?_, hid, rfl⟩
  · rw [← hid]
    exact hs.get?_of_mem_values hmem
  · exact (hdevices system hmem).get?_of_mem_values (List.mem_of_getElem? hr)

/-- A record of a system has a handle. -/
theorem exists_keysAt? (hs : s.systems.Keyed (·.systemId)) {system : System}
    (hsystem : system ∈ s.systems.values) (hdevices : (devices system).Keyed serial) {r : α}
    (hr : r ∈ (devices system).values) :
    ∃ h, s.keysAt? devices h = some (system.systemId, serial r) := by
  obtain ⟨e, he, rfl⟩ := List.mem_map.mp hsystem
  obtain ⟨p, hp⟩ := List.mem_iff_getElem?.mp he
  obtain ⟨q, hq⟩ := List.mem_iff_getElem?.mp hr
  have hid : e.2.systemId = e.1 := hs e he
  refine ⟨⟨p, q⟩, ?_⟩
  rw [keysAt?, hp, Option.bind_some, hdevices.keys_eq, List.getElem?_map, hq, hid]
  rfl

end

/-- Handles lead to the same keys in sessions with the same devices. -/
theorem keysAt?_of_devices_eq {s s' : Session} (h : s'.devices = s.devices) (handle : Handle) :
    s'.keysAt? System.sensors handle = s.keysAt? System.sensors handle ∧
      s'.keysAt? System.cameras handle = s.keysAt? System.cameras handle := by
  have hdevices : ∀ s : Session,
      s.keysAt? System.sensors handle =
          (s.devices[handle.system]?.bind fun d => d.2.1[handle.device]?.map (d.1, ·)) ∧
        s.keysAt? System.cameras handle =
          s.devices[handle.system]?.bind fun d => d.2.2[handle.device]?.map (d.1, ·) := by
    intro s
    unfold devices keysAt?
    rw [List.getElem?_map]
    cases s.systems.entries[handle.system]? <;> exact ⟨rfl, rfl⟩
  rw [(hdevices s').1, (hdevices s').2, h]
  exact ⟨(hdevices s).1.symm, (hdevices s).2.symm⟩

end Session

namespace Entity

/-- The ids that an entity carries of the device behind it. -/
def keys (e : Entity) : UInt64 × String := (e.info.systemId, e.info.deviceSerial)

/-- The keys under which the record at a handle stands that an entity of this role has. -/
def keysAt? (e : Entity) (s : Session) (h : Handle) : Option (UInt64 × String) :=
  match e.role with
  | .polled _ => s.keysAt? System.sensors h
  | _ => s.keysAt? System.cameras h

/-- The record at a handle is the sensor or camera that an entity carries the ids of. -/
def HeldAt (e : Entity) (s : Session) (h : Handle) : Prop :=
  match e.role with
  | .polled _ => s.HoldsAt System.sensors SensorRecord.serial h e.keys
  | _ => s.HoldsAt System.cameras CameraRecord.serial h e.keys

theorem heldAt_of_keysAt? {e : Entity} {s : Session} (hs : s.Keyed) {h : Handle}
    (hkeys : e.keysAt? s h = some e.keys) : e.HeldAt s h := by
  unfold keysAt? at hkeys
  unfold HeldAt
  split at hkeys
  · exact Session.holdsAt_of_keysAt? hs.systems hs.sensors hkeys
  · exact Session.holdsAt_of_keysAt? hs.systems hs.cameras hkeys

theorem keysAt?_bare (e : Entity) (s : Session) (h : Handle) :
    e.bare.keysAt? s h = e.keysAt? s h := by
  obtain ⟨info, role, cell⟩ := e
  cases role <;> rfl

theorem keysAt?_of_devices_eq (e : Entity) {s s' : Session} (h : s'.devices = s.devices)
    (handle : Handle) : e.keysAt? s' handle = e.keysAt? s handle := by
  obtain ⟨hsensors, hcameras⟩ := Session.keysAt?_of_devices_eq h handle
  unfold keysAt?
  split
  · exact hsensors
  · exact hcameras

end Entity

namespace Bridge

variable {s : Session} {e : Entity}

/-- The record that an entity is made for has a handle. -/
theorem exists_keysAt?_of_mem_entitiesOf (hs : s.Keyed) (h : e ∈ entitiesOf s) :
    ∃ handle, e.keysAt? s handle = some e.keys := by
  obtain ⟨system, hsystem, -, ⟨r, hr, he⟩ | ⟨r, hr, he⟩⟩ := of_mem_entitiesOf h
  · obtain ⟨flag, hrole, hid, hserial, -⟩ := Entity.of_mem_ofSensor he
    obtain ⟨handle, hhandle⟩ :=
      Session.exists_keysAt? hs.systems hsystem (hs.sensors system hsystem) hr
    exact ⟨handle, by rw [Entity.keysAt?, hrole, Entity.keys, hid, hserial]; exact hhandle⟩
  · obtain ⟨handle, hhandle⟩ :=
      Session.exists_keysAt? hs.systems hsystem (hs.cameras system hsystem) hr
    refine ⟨handle, ?_⟩
    rcases he with he | rfl
    · obtain ⟨kind, -, rfl⟩ := Entity.mem_momentaryOf.mp he
      exact hhandle
    · exact hhandle

theorem videoUrl_defaultWidth (serial : String) : videoUrl serial defaultWidth =
    "https://media.simplisafe.com/v1/" ++ serial ++ "/flv?x=1280&audioEncoding=AAC" := by
  have hquery : "/flv?x=" ++ (toString defaultWidth ++ "&audioEncoding=AAC") =
      "/flv?x=1280&audioEncoding=AAC" := by decide +kernel
  show "https://media.simplisafe.com/v1/" ++ serial ++ "/flv?x=" ++ toString defaultWidth ++
    "&audioEncoding=AAC" = _
  rw [String.append_assoc, String.append_assoc, hquery]

/-- Where cameras stand under their own serials, the address of an entity's video has the serial
that the entity carries. -/
theorem url_streamInput {b : Bridge} (hb : b.session.Keyed) (e : Entity) :
    (b.streamInput e).url = videoUrl e.info.deviceSerial defaultWidth := by
  have hrecord : ∀ r, b.session.camera? e.info.systemId e.info.deviceSerial = some r →
      r.url = videoUrl e.info.deviceSerial defaultWidth := by
    intro r hr
    obtain ⟨system, hsystem, hr⟩ := Option.bind_eq_some_iff.mp hr
    have hserial : r.serial = e.info.deviceSerial :=
      (hb.cameras system (Roster.mem_values_of_get? hsystem)).key_of_get? hr
    rw [CameraRecord.url, hserial]
  show ((b.session.camera? e.info.systemId e.info.deviceSerial).map CameraRecord.url).getD _ = _
  cases hr : b.session.camera? e.info.systemId e.info.deviceSerial with
  | none => rfl
  | some r => exact hrecord r hr

/-- Of every session and after every run: systems and devices stand under their own keys; the
entities are those registered at the start, in that order and with what they carried then; each has
a handle, the same throughout, at which stands the record of the system and the serial that the
entity carries; and what a step has the grabber read is the video of a camera at the address with
that camera's serial. -/
theorem entities_stay_bound (entryId : String) (first : Snapshot) (clearDelay : Nat) (g : Grabber) :
    let s := Session.ofSnapshot entryId first
    let start := setup s clearDelay g
    (∀ steps, (start.run steps).session.Keyed ∧
      (start.run steps).entities.map Entity.bare = (entitiesOf s).map Entity.bare ∧
      (start.run steps).entities.map (·.info) = (entitiesOf s).map (·.info)) ∧
    (∀ (i : Nat) ent, (entitiesOf s)[i]? = some ent → ∃ h : Handle, ∀ steps, ∃ e,
      (start.run steps).entities[i]? = some e ∧ e.keys = ent.keys ∧
        e.HeldAt (start.run steps).session h) ∧
    ∀ steps step, ∃ calls,
      ((start.run steps).step step).1.grabber.calls = (start.run steps).grabber.calls ++ calls ∧
      ∀ call ∈ calls, ∀ input, call.input? = some input → ∃ i e, step.camera? = some i ∧
        (start.run steps).entities[i]? = some e ∧
        input.url = "https://media.simplisafe.com/v1/" ++ e.info.deviceSerial ++
          "/flv?x=1280&audioEncoding=AAC" := by
  intro s start
  have hs : s.Keyed := Session.keyed_ofSnapshot entryId first
  have hkept : ∀ steps, s.Kept (start.run steps).session := by
    intro steps
    rw [session_run]
    exact s.kept_foldl_after steps
  have hbare :
      ∀ steps, (start.run steps).entities.map Entity.bare = (entitiesOf s).map Entity.bare :=
    entities_run_bare s clearDelay g
  refine ⟨fun steps => ⟨(hkept steps).keyed hs, hbare steps, ?_⟩, fun i ent hent => ?_,
    fun steps step => ⟨_, calls_step _ step, fun call hcall input hinput => ?_⟩⟩
  · simpa [Function.comp_def] using congrArg (List.map (·.info)) (hbare steps)
  · obtain ⟨handle, hhandle⟩ := exists_keysAt?_of_mem_entitiesOf hs (List.mem_of_getElem? hent)
    refine ⟨handle, fun steps => ?_⟩
    obtain ⟨e, he, hsame⟩ : ∃ e, (start.run steps).entities[i]? = some e ∧ e.bare = ent.bare := by
      have hget := congrArg (·[i]?) (hbare steps)
      simp only [List.getElem?_map, hent, Option.map_some] at hget
      exact Option.map_eq_some_iff.mp hget
    have hkeys : e.keys = ent.keys := (congrArg Entity.keys hsame :)
    refine ⟨e, he, hkeys, Entity.heldAt_of_keysAt? ((hkept steps).keyed hs) ?_⟩
    rw [e.keysAt?_of_devices_eq (hkept steps).devices, ← e.keysAt?_bare, hsame, ent.keysAt?_bare,
      hhandle, hkeys]
  · obtain ⟨i, e, hcamera, hent, rfl⟩ := input_of_mem_calling hcall hinput
    refine ⟨i, e, hcamera, hent, ?_⟩
    rw [url_streamInput ((hkept steps).keyed hs) e, videoUrl_defaultWidth]

/-- A later dump that has another name and another token for the camera of `shyCamera`. -/
def renamedCamera : Snapshot :=
  ⟨"later", [⟨1, 3, .off, [], [⟨"c1", "Porch", .doorbell, "offline", true, true, true, true⟩]⟩]⟩

/-- A camera that a dump renames keeps its handle, and its frames are read from the address of its
serial. -/
theorem entities_stay_bound_renamed :
    let b := (setup (.ofSnapshot "test" shyCamera) 30000 ⟨[], [], []⟩).run [.apply renamedCamera]
    (∃ h e, b.entities[1]? = some e ∧ e.HeldAt b.session h ∧ e.keys = (1, "c1")) ∧
    (b.step (.fetch 1 none)).1.grabber.calls.length = 1 ∧
    ∀ call ∈ (b.step (.fetch 1 none)).1.grabber.calls, ∀ input, call.input? = some input →
      input.url = "https://media.simplisafe.com/v1/c1/flv?x=1280&audioEncoding=AAC" := by
  intro b
  obtain ⟨-, hhandles, hcalls⟩ := entities_stay_bound "test" shyCamera 30000 ⟨[], [], []⟩
  obtain ⟨h, hheld⟩ := hhandles 1 _ rfl
  obtain ⟨e, he, hkeys, hheld⟩ := hheld [.apply renamedCamera]
  refine ⟨⟨h, e, he, hheld, hkeys⟩, by decide +kernel, fun call hcall input hinput => ?_⟩
  obtain ⟨calls, hstep, hurl⟩ := hcalls [.apply renamedCamera] (.fetch 1 none)
  have hnone : b.grabber.calls = [] := by decide +kernel
  have hnew : (b.step (.fetch 1 none)).1.grabber.calls = calls := by rw [hstep, hnone]; rfl
  obtain ⟨i, e', hcamera, he', hurl⟩ := hurl call (hnew ▸ hcall) input hinput
  obtain rfl : 1 = i := Option.some.inj hcamera
  obtain rfl : e = e' := Option.some.inj (he.symm.trans he')
  have hserial : e.info.deviceSerial = "c1" := congrArg Prod.snd hkeys
  rw [hurl, hserial]
  rfl

end Bridge

end AlarmBridge
