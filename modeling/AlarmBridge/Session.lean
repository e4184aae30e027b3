import AlarmBridge.Log
import AlarmBridge.Roster
import AlarmBridge.Snapshot

/-! The state of an account: its systems and their devices, fixed when the session starts, and its
access token.  `apply` takes over from a later dump what it says of them and leaves out the rest. -/

set_option autoImplicit false

namespace AlarmBridge

/-- A base station with its devices. -/
structure System where
  systemId : UInt64
  version : UInt8
  state : ArmState
  sensors : Roster String SensorRecord
  cameras : Roster String CameraRecord

namespace System

/-- The system that a dump tells of, with the last record of each serial. -/
def ofSnapshot (s : SystemSnapshot) : System where
  systemId := s.systemId
  version := s.version
  state := s.state
  sensors := .ofList (·.serial) s.sensors
  cameras := .ofList (·.serial) s.cameras

/-- The version of base stations whose devices are left out. -/
def legacyVersion : UInt8 := 2

/-- Whether the devices of a system are left out. -/
def isLegacy (s : System) : Bool := s.version = legacyVersion

/-- A system with what a later dump says of its state and its devices. -/
def apply (s : System) (next : SystemSnapshot) : System :=
  { s with
    state := next.state
    sensors := next.sensors.foldl (fun r d => r.replace d.serial d) s.sensors
    cameras := next.cameras.foldl (fun r d => r.replace d.serial d) s.cameras }

/-- The log line for a device that the system does not have. -/
def newDevice (s : System) (kind serial : String) : Log.Record :=
  ⟨.debug, .system, s!"[Vendor] System {s.systemId}: ignoring new {kind} {serial} until reload"⟩

/-- The log lines for the devices of a later dump that the system does not have. -/
def newDevices (s : System) (next : SystemSnapshot) : List Log.Record :=
  ((next.sensors.filter fun d => !s.sensors.contains d.serial).map
      fun d => s.newDevice "sensor" d.serial) ++
    (next.cameras.filter fun d => !s.cameras.contains d.serial).map
      fun d => s.newDevice "camera" d.serial

end System

/-- One account. -/
structure Session where
  entryId : String
  systems : Roster UInt64 System
  token : String

namespace Session

/-- The session that starts with a dump, with the last entry of each system. -/
def ofSnapshot (entryId : String) (s : Snapshot) : Session where
  entryId := entryId
  systems := .ofList (·.systemId) (s.systems.map System.ofSnapshot)
  token := s.accessToken

/-- A session with what a later dump says of one system. -/
def applySystem (s : Session) (next : SystemSnapshot) : Session :=
  { s with systems := s.systems.modify next.systemId fun system => system.apply next }

/-- A session with what a later dump says of its token and its systems. -/
def apply (s : Session) (next : Snapshot) : Session :=
  let s := if next.accessToken.isEmpty then s else { s with token := next.accessToken }
  next.systems.foldl applySystem s

/-- The log lines for what a later dump tells of and the session does not have. -/
def ignored (s : Session) (next : Snapshot) : List Log.Record :=
  next.systems.flatMap fun system =>
    match s.systems.get? system.systemId with
    | some existing => existing.newDevices system
    | none =>
      [⟨.debug, .session,
        s!"[Vendor] Entry {s.entryId}: ignoring new system {system.systemId} until reload"⟩]

def sensor? (s : Session) (systemId : UInt64) (serial : String) : Option SensorRecord :=
  (s.systems.get? systemId).bind (·.sensors.get? serial)

def camera? (s : Session) (systemId : UInt64) (serial : String) : Option CameraRecord :=
  (s.systems.get? systemId).bind (·.cameras.get? serial)

def setState (s : Session) (systemId : UInt64) (state : ArmState) : Session :=
  { s with systems := s.systems.modify systemId fun system => { system with state := state } }

def setSensor (s : Session) (systemId : UInt64) (r : SensorRecord) : Session :=
  { s with systems := s.systems.modify systemId fun system =>
    { system with sensors := system.sensors.replace r.serial r } }

end Session

end AlarmBridge
