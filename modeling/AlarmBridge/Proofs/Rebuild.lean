import AlarmBridge.Proofs.Records

/-! Refreshing agrees with rebuilding.  A session that takes over the dump it was made from stays as
it is, and taking over a dump twice is taking it over once.  A session with the systems and devices
of another is, once it has taken over the dump of the other, the same but for the versions of its
systems, and for its token where the dump has none. -/

set_option autoImplicit false

namespace AlarmBridge

namespace Roster

variable {κ α : Type} [Ord κ] [DecidableEq κ] [Std.TransOrd κ]

/-- Replacing the same values once more changes nothing. -/
theorem foldl_replace_twice (key : α → κ) (vs : List α) (r : Roster κ α) :
    vs.foldl (fun r v => r.replace (key v) v) (vs.foldl (fun r v => r.replace (key v) v) r) =
      vs.foldl (fun r v => r.replace (key v) v) r := by
  refine ext_get? fun k => ?_
  simp only [get?_foldl_replace, Option.map_map]
  cases r.get? k with
  | none => rfl
  | some old => cases (vs.filter (key · = k)).getLast? <;> simp

/-- Where a roster has the keys of a list, replacing its values by ones that say last of each key
what the list does makes it the roster of the list. -/
theorem foldl_replace_eq_ofList [Std.LawfulEqOrd κ] {key : α → κ} {r : Roster κ α}
    {vs last : List α} (hkeys : r.keys = (ofList key last).keys)
    (hlast : ∀ k v, (last.filter (key · = k)).getLast? = some v →
      (vs.filter (key · = k)).getLast? = some v) :
    vs.foldl (fun r v => r.replace (key v) v) r = ofList key last := by
  refine ext_get? fun k => ?_
  have hsame : (r.get? k).isSome ↔ ((ofList key last).get? k).isSome := by
    rw [isSome_get?_iff, isSome_get?_iff, hkeys]
  rw [get?_foldl_replace]
  cases hv : (ofList key last).get? k with
  | none =>
    have hnone : r.get? k = none := by simpa [hv] using hsame
    rw [hnone, Option.map_none]
  | some v =>
    obtain ⟨old, hold⟩ : ∃ old, r.get? k = some old := by
      rw [← Option.isSome_iff_exists, hsame, hv]
      rfl
    rw [get?_ofList] at hv
    rw [hold, Option.map_some, hlast k v hv, Option.getD_some]

end Roster

namespace System

/-- What a refresh brings a system up to: its arm state and the records of its devices. -/
def records (s : System) : ArmState × Roster String SensorRecord × Roster String CameraRecord :=
  (s.state, s.sensors, s.cameras)

/-- What entries of a dump leave of a system, but for its devices. -/
theorem foldl_apply_header (entries : List SystemSnapshot) (system : System) :
    (entries.foldl apply system).systemId = system.systemId ∧
      (entries.foldl apply system).version = system.version ∧
      (entries.foldl apply system).state =
        ((entries.getLast?).map (·.state)).getD system.state := by
  induction entries generalizing system with
  | nil => exact ⟨rfl, rfl, rfl⟩
  | cons entry entries ih =>
    obtain ⟨hid, hversion, hstate⟩ := ih (system.apply entry)
    rw [List.foldl_cons, hid, hversion, hstate, List.getLast?_cons]
    refine ⟨rfl, rfl, ?_⟩
    cases entries.getLast? <;> rfl

theorem eq_of_parts {a b : System} (hid : a.systemId = b.systemId)
    (hversion : a.version = b.version) (hstate : a.state = b.state)
    (hsensors : a.sensors = b.sensors) (hcameras : a.cameras = b.cameras) : a = b := by
  cases a
  cases b
  simp_all

/-- Entries of a dump that a system takes over again change nothing. -/
theorem foldl_apply_twice (entries : List SystemSnapshot) (system : System) :
    entries.foldl apply (entries.foldl apply system) = entries.foldl apply system := by
  obtain ⟨hid, hversion, hstate⟩ := foldl_apply_header entries (entries.foldl apply system)
  obtain ⟨hsensors, hcameras⟩ := foldl_apply entries (entries.foldl apply system)
  obtain ⟨hsensors', hcameras'⟩ := foldl_apply entries system
  refine eq_of_parts hid hversion ?_ ?_ ?_
  · rw [hstate, (foldl_apply_header entries system).2.2]
    cases entries.getLast? <;> rfl
  · rw [hsensors, hsensors', Roster.foldl_replace_twice]
  · rw [hcameras, hcameras', Roster.foldl_replace_twice]

/-- A system with the devices of the last of its entries is, once it has taken them over, the system
that this entry tells of, but for its version. -/
theorem foldl_apply_eq {entries : List SystemSnapshot} {entry : SystemSnapshot} {system : System}
    (hlast : entries.getLast? = some entry) (hid : system.systemId = entry.systemId)
    (hsensors : system.sensors.keys = (ofSnapshot entry).sensors.keys)
    (hcameras : system.cameras.keys = (ofSnapshot entry).cameras.keys) :
    entries.foldl apply system = { ofSnapshot entry with version := system.version } := by
  obtain ⟨hsystemId, hversion, hstate⟩ := foldl_apply_header entries system
  obtain ⟨hsensors', hcameras'⟩ := foldl_apply entries system
  refine eq_of_parts (hsystemId.trans hid) hversion ?_ ?_ ?_
  · rw [hstate, hlast]
    rfl
  · rw [hsensors']
    exact Roster.foldl_replace_eq_ofList hsensors fun _ _ => Session.getLast?_flatMap_filter hlast
  · rw [hcameras']
    exact Roster.foldl_replace_eq_ofList hcameras fun _ _ => Session.getLast?_flatMap_filter hlast

end System

namespace Session

theorem foldl_applySystem_header (entries : List SystemSnapshot) (s : Session) :
    (entries.foldl applySystem s).entryId = s.entryId ∧
      (entries.foldl applySystem s).token = s.token := by
  induction entries generalizing s with
  | nil => exact ⟨rfl, rfl⟩
  | cons entry entries ih => exact ih (s.applySystem entry)

/-- What a dump leaves of a session, but for its systems. -/
theorem apply_header (s : Session) (next : Snapshot) :
    (s.apply next).entryId = s.entryId ∧
      (s.apply next).token = if next.accessToken.isEmpty then s.token else next.accessToken := by
  unfold apply
  simp only
  split <;> exact foldl_applySystem_header _ _

theorem eq_of_parts {s s' : Session} (hid : s.entryId = s'.entryId)
    (hsystems : ∀ id, s.systems.get? id = s'.systems.get? id) (htoken : s.token = s'.token) :
    s = s' := by
  have hroster : s.systems = s'.systems := Roster.ext_get? hsystems
  cases s
  cases s'
  simp_all

/-- The ids of the systems of a session, with the serials of their sensors and cameras. -/
def devices (s : Session) : List (UInt64 × List String × List String) :=
  s.systems.entries.map fun e => (e.1, e.2.sensors.keys, e.2.cameras.keys)

theorem serials_of_devices_eq {s s' : Session} (h : s.devices = s'.devices) (id : UInt64) :
    (s.systems.get? id).map (fun system => (system.sensors.keys, system.cameras.keys)) =
      (s'.systems.get? id).map fun system => (system.sensors.keys, system.cameras.keys) := by
  have hfind : ∀ s : Session,
      (s.systems.get? id).map (fun system => (system.sensors.keys, system.cameras.keys)) =
        (s.devices.find? fun e => e.1 = id).map (·.2) := by
    intro s
    rw [devices, List.find?_map, Option.map_map, Roster.get?, Option.map_map]
    rfl
  rw [hfind, hfind, h]

/-- A session with the systems and devices of a dump has after taking it over the systems that the
dump tells of, but for their versions. -/
theorem get?_apply_of_devices_eq {entryId : String} {first next : Snapshot}
    (h : (ofSnapshot entryId first).devices = (ofSnapshot entryId next).devices) (id : UInt64) :
    ((ofSnapshot entryId first).apply next).systems.get? id =
      ((ofSnapshot entryId first).systems.get? id).bind fun old =>
        ((ofSnapshot entryId next).systems.get? id).map fun system =>
          { system with version := old.version } := by
  have hserials := serials_of_devices_eq h id
  rw [get?_apply]
  cases hold : (ofSnapshot entryId first).systems.get? id with
  | none => rfl
  | some old =>
    rw [hold, Option.map_some] at hserials
    obtain ⟨system, hsystem, hkeys⟩ := Option.map_eq_some_iff.mp hserials.symm
    obtain ⟨hsensors, hcameras⟩ := Prod.mk.inj hkeys
    rw [Option.map_some, Option.bind_some, hsystem, Option.map_some]
    rw [get?_ofSnapshot] at hsystem
    obtain ⟨entry, hentry, rfl⟩ := Option.map_eq_some_iff.mp hsystem
    have hid : old.systemId = entry.systemId := by
      have hentryId : entry.systemId = id := by
        simpa using (List.mem_filter.mp (List.mem_of_getLast? hentry)).2
      exact ((keyed_ofSnapshot entryId first).systems.key_of_get? hold).trans hentryId.symm
    rw [System.foldl_apply_eq hentry hid hsensors.symm hcameras.symm]

/-- A session takes over the dump it was made from without a change, and a dump twice as once.  With
the systems and devices of another it has, after taking over the dump of that one, the same arm
states and records, and the same token unless the dump has none. -/
theorem refreshing_agrees_with_rebuilding (entryId : String) :
    (∀ first, (ofSnapshot entryId first).apply first = ofSnapshot entryId first) ∧
    (∀ (s : Session) next, (s.apply next).apply next = s.apply next) ∧
    ∀ first next, (ofSnapshot entryId first).devices = (ofSnapshot entryId next).devices →
      let refreshed := (ofSnapshot entryId first).apply next
      let rebuilt := ofSnapshot entryId next
      (∀ id, (refreshed.systems.get? id).map System.records =
        (rebuilt.systems.get? id).map System.records) ∧
      refreshed.token =
        if next.accessToken.isEmpty then first.accessToken else rebuilt.token := by
  refine ⟨fun first => ?_, fun s next => ?_, fun first next h => ⟨fun id => ?_, ?_⟩⟩
  · refine eq_of_parts (apply_header _ _).1 (fun id => ?_) ?_
    · rw [get?_apply_of_devices_eq rfl]
      cases (ofSnapshot entryId first).systems.get? id <;> rfl
    · rw [(apply_header _ _).2]
      split <;> rfl
  · refine eq_of_parts (apply_header _ _).1 (fun id => ?_) ?_
    · rw [get?_apply, get?_apply, Option.map_map]
      exact congrArg (Option.map · _) (funext fun system => System.foldl_apply_twice _ system)
    · rw [(apply_header _ _).2, (apply_header s next).2]
      split <;> rfl
  · have hserials := serials_of_devices_eq h id
    rw [get?_apply_of_devices_eq h]
    cases hold : (ofSnapshot entryId first).systems.get? id with
    | none =>
      rw [hold, Option.map_none] at hserials
      rw [Option.map_eq_none_iff.mp hserials.symm]
      rfl
    | some old =>
      rw [Option.bind_some, Option.map_map]
      rfl
  · exact (apply_header _ _).2

/-- An account whose system has two entries, in the second of which a door is told of twice. -/
def toldTwice (state : ArmState) (isOpen : Bool) : Snapshot :=
  ⟨"", [⟨1, 3, .home,
    [⟨"s1", "Door", .entry, isOpen, true⟩, ⟨"s2", "Hall", .motion, isOpen, false⟩], []⟩,
    ⟨1, 3, state, [⟨"s1", "Door", .entry, !isOpen, false⟩, ⟨"s1", "Door", .entry, isOpen, false⟩],
      []⟩]⟩

/-- What is told of the door last counts, as it does for a session made from the later dump. -/
theorem refreshing_agrees_with_rebuilding_toldTwice :
    let first := ofSnapshot "home" (toldTwice .off false)
    let rebuilt := ofSnapshot "home" (toldTwice .away true)
    first.devices = rebuilt.devices ∧
      ((first.apply (toldTwice .away true)).systems.get? 1).map System.records =
        (rebuilt.systems.get? 1).map System.records := by
  intro first rebuilt
  have hdevices : first.devices = rebuilt.devices := by decide +kernel
  obtain ⟨-, -, hrefreshed⟩ := refreshing_agrees_with_rebuilding "home"
  exact ⟨hdevices, (hrefreshed (toldTwice .off false) (toldTwice .away true) hdevices).1 1⟩

end Session

end AlarmBridge
