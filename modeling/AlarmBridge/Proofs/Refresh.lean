import AlarmBridge.Proofs.Exposure
import AlarmBridge.Proofs.Handles

/-! What taking over a dump does.  The token, the arm states and the records become what the dump
says last of them, and stay as they are where it says nothing.  Nothing else changes: not which
systems and devices there are, and not the entities, which are told of the records only by a
refresh.  What the dump says of systems and devices that the session does not have leaves no
trace. -/

set_option autoImplicit false

namespace AlarmBridge

/-- An entry of a dump without the devices that a system does not have. -/
def SystemSnapshot.knownTo (system : System) (entry : SystemSnapshot) : SystemSnapshot :=
  { entry with
    sensors := entry.sensors.filter fun d => system.sensors.contains d.serial
    cameras := entry.cameras.filter fun d => system.cameras.contains d.serial }

@[simp] theorem SystemSnapshot.systemId_knownTo (system : System) (entry : SystemSnapshot) :
    (entry.knownTo system).systemId = entry.systemId := rfl

/-- A dump without the systems and the devices that a session does not have. -/
def Snapshot.knownTo (s : Session) (next : Snapshot) : Snapshot :=
  { next with
    systems := next.systems.filterMap fun entry =>
      (s.systems.get? entry.systemId).map fun system => entry.knownTo system }

namespace Roster

variable {κ α : Type} [Ord κ] [DecidableEq κ]

/-- Values of keys that a roster does not have replace nothing in it. -/
theorem foldl_replace_filter_contains [Std.TransOrd κ] (key : α → κ) (vs : List α)
    (r : Roster κ α) :
    (vs.filter fun v => r.contains (key v)).foldl (fun r v => r.replace (key v) v) r =
      vs.foldl (fun r v => r.replace (key v) v) r := by
  refine ext_get? fun k => ?_
  rw [get?_foldl_replace, get?_foldl_replace, List.filter_filter]
  cases hold : r.get? k with
  | none => rfl
  | some old =>
    have hsame : vs.filter (fun v => decide (key v = k) && r.contains (key v)) =
        vs.filter fun v => decide (key v = k) := by
      refine List.filter_congr fun v _ => ?_
      by_cases hk : key v = k
      · simp [hk, contains_eq, hold]
      · simp [hk]
    rw [hsame]

end Roster

/-- Entries of a dump do to a system what they do without the devices that it does not have. -/
theorem System.foldl_apply_knownTo (entries : List SystemSnapshot) (system : System) :
    (entries.map (·.knownTo system)).foldl apply system = entries.foldl apply system := by
  obtain ⟨hid, hversion, hstate⟩ := foldl_apply_header entries system
  obtain ⟨hid', hversion', hstate'⟩ := foldl_apply_header (entries.map (·.knownTo system)) system
  obtain ⟨hsensors, hcameras⟩ := foldl_apply entries system
  obtain ⟨hsensors', hcameras'⟩ := foldl_apply (entries.map (·.knownTo system)) system
  refine eq_of_parts (hid'.trans hid.symm) (hversion'.trans hversion.symm) ?_ ?_ ?_
  · rw [hstate', hstate, List.getLast?_map, Option.map_map]
    rfl
  · have hfilter : (entries.map (·.knownTo system)).flatMap (·.sensors) =
        (entries.flatMap (·.sensors)).filter fun d => system.sensors.contains d.serial := by
      rw [List.flatMap_map, List.filter_flatMap]
      rfl
    rw [hsensors', hsensors, hfilter]
    exact Roster.foldl_replace_filter_contains _ _ _
  · have hfilter : (entries.map (·.knownTo system)).flatMap (·.cameras) =
        (entries.flatMap (·.cameras)).filter fun d => system.cameras.contains d.serial := by
      rw [List.flatMap_map, List.filter_flatMap]
      rfl
    rw [hcameras', hcameras, hfilter]
    exact Roster.foldl_replace_filter_contains _ _ _

namespace Session

theorem filter_systems_knownTo {s : Session} {systemId : UInt64} {system : System}
    (h : s.systems.get? systemId = some system) (next : Snapshot) :
    (next.knownTo s).systems.filter (·.systemId = systemId) =
      (next.systems.filter (·.systemId = systemId)).map (·.knownTo system) := by
  show (next.systems.filterMap _).filter _ = _
  induction next.systems with
  | nil => rfl
  | cons entry entries ih =>
    rw [List.filterMap_cons]
    by_cases hid : entry.systemId = systemId
    · simp [hid, h, ih]
    · rw [List.filter_cons_of_neg (by simpa using hid), ← ih]
      cases s.systems.get? entry.systemId with
      | none => rfl
      | some other => simp [hid]

/-- What a dump says of systems and devices that a session does not have leaves no trace. -/
theorem apply_knownTo (s : Session) (next : Snapshot) :
    s.apply (next.knownTo s) = s.apply next := by
  obtain ⟨hid, htoken⟩ := apply_header s next
  obtain ⟨hid', htoken'⟩ := apply_header s (next.knownTo s)
  refine eq_of_parts (hid'.trans hid.symm) (fun systemId => ?_) (htoken'.trans htoken.symm)
  rw [get?_apply, get?_apply]
  cases hsystem : s.systems.get? systemId with
  | none => rfl
  | some system =>
    rw [Option.map_some, Option.map_some, filter_systems_knownTo hsystem,
      System.foldl_apply_knownTo]

/-- The arm state of a system in a session. -/
def state? (s : Session) (systemId : UInt64) : Option ArmState :=
  (s.systems.get? systemId).map (·.state)

theorem state?_apply (s : Session) (next : Snapshot) (systemId : UInt64) :
    (s.apply next).state? systemId = (s.state? systemId).map fun old =>
      ((next.entry? systemId).map (·.state)).getD old := by
  rw [state?, get?_apply, state?, Option.map_map, Option.map_map]
  exact congrArg (Option.map · _) (funext fun system => (System.foldl_apply_header _ system).2.2)

end Session

namespace Bridge

theorem step_apply {b : Bridge} (hsettled : Settled b) (next : Snapshot) :
    b.step (.apply next) =
      ({ b with session := b.session.apply next, log := b.log ++ b.session.ignored next },
        .done) := by
  have hafter : Settled (b.apply next) := hsettled
  show ((b.apply next).settle, _) = _
  rw [hafter.settle]
  rfl

end Bridge

/-- Of every session and every dump, whatever it repeats and in whatever order: taking it over gives
the session the dump's token unless that is empty, each system the arm state in its last entry, and
each device the last record of its serial in the entries of its system; what the dump does not tell
of stays as it is.  The systems with their versions and the devices are those there were, and it is
as if the dump told of no others.  A bridge that takes over a dump changes nothing but its session
and its log. -/
theorem Session.apply_writes_what_is_said_last (s : Session) (next : Snapshot) :
    let after := s.apply next
    after.entryId = s.entryId ∧
    after.token = (if next.accessToken.isEmpty then s.token else next.accessToken) ∧
    (∀ id, after.state? id = (s.state? id).map fun old =>
      ((next.entry? id).map (·.state)).getD old) ∧
    (∀ id serial, after.sensor? id serial = (s.sensor? id serial).map fun old =>
      (next.sensor? id serial).getD old) ∧
    (∀ id serial, after.camera? id serial = (s.camera? id serial).map fun old =>
      (next.camera? id serial).getD old) ∧
    after.devices = s.devices ∧
    (∀ id, after.version? id = s.version? id) ∧
    s.apply (next.knownTo s) = after ∧
    ∀ (clearDelay : Nat) (g : Grabber) (steps : List Bridge.Step),
      let b := (Bridge.setup s clearDelay g).run steps
      b.step (.apply next) = ({ b with
        session := b.session.apply next
        log := b.log ++ b.session.ignored next }, .done) := by
  intro after
  have hdevices := s.devices_apply next
  refine ⟨(s.apply_header next).1, (s.apply_header next).2, s.state?_apply next,
    fun id serial => (hdevices id serial).1, fun id serial => (hdevices id serial).2,
    (s.kept_apply next).devices, s.version?_apply next, s.apply_knownTo next,
    fun clearDelay g steps => ?_⟩
  have hstart : Bridge.Settled (.setup s clearDelay g) := rfl
  exact Bridge.step_apply (Bridge.settled_run hstart steps) next

end AlarmBridge
