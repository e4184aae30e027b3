import AlarmBridge.Entity.Info
import AlarmBridge.Entity.StateCell
import AlarmBridge.Session
import AlarmBridge.Text.Utf8

/-! Entities: who they are, their state, and what drives it.  A polled sensor shows a flag of its
sensor's record, a momentary sensor is turned on by events of its camera, and a camera is on while
it can be reached and keeps its last image. -/

set_option autoImplicit false

namespace AlarmBridge

/-- The flag of a record that a polled sensor shows. -/
inductive PolledFlag
  | triggered
  | lowBattery
deriving Repr, DecidableEq, Inhabited

def PolledFlag.read : PolledFlag → SensorRecord → Bool
  | .triggered, r => r.triggered
  | .lowBattery, r => r.lowBattery

/-- The events that turn a momentary sensor on. -/
inductive MomentaryKind
  | motion
  | doorbell
deriving Repr, DecidableEq, Inhabited

/-- The kind of event that turns a sensor on. -/
def MomentaryKind.eventType : MomentaryKind → EventType
  | .motion => .motionDetected
  | .doorbell => .doorbellDetected

/-- What drives an entity. -/
inductive Role
  | polled (flag : PolledFlag)
  | momentary (kind : MomentaryKind)
  | camera (image : Option Bytes)
deriving Repr, DecidableEq, Inhabited

structure Entity where
  info : EntityInfo
  role : Role
  cell : StateCell
deriving Repr, DecidableEq, Inhabited

namespace Entity

def isCamera (e : Entity) : Bool :=
  match e.role with
  | .camera _ => true
  | _ => false

def image? (e : Entity) : Option Bytes :=
  match e.role with
  | .camera image => image
  | _ => none

/-- The kinds of events that an entity wants. -/
def subscribed (e : Entity) : List EventType :=
  match e.role with
  | .momentary kind => [kind.eventType]
  | _ => []

/-- Whether an event is delivered to an entity. -/
def receives (e : Entity) (event : PushEvent) : Bool :=
  decide (event.eventType ∈ e.subscribed) && e.info.accepts event

/-- The state that the records of a session give an entity, if it follows them. -/
def reading? (e : Entity) (s : Session) : Option Bool :=
  match e.role with
  | .polled flag => (s.sensor? e.info.systemId e.info.deviceSerial).map flag.read
  | .momentary _ => none
  | .camera _ => (s.camera? e.info.systemId e.info.deviceSerial).map CameraRecord.isAvailable

/-- The present name of the device behind an entity. -/
def deviceName (e : Entity) (s : Session) : String :=
  match e.role with
  | .polled _ => ((s.sensor? e.info.systemId e.info.deviceSerial).map (·.name)).getD ""
  | _ => ((s.camera? e.info.systemId e.info.deviceSerial).map (·.name)).getD ""

def write (e : Entity) (value : Bool) : Entity := { e with cell := e.cell.write value }

def keepImage (e : Entity) (image : Bytes) : Entity :=
  match e.role with
  | .camera _ => { e with role := .camera (some image) }
  | _ => e

end Entity

end AlarmBridge
