import AlarmBridge.Json.Value
import AlarmBridge.PushEvent

/-! Who an entity is: its unique id, the device behind it, and how a host presents it. -/

set_option autoImplicit false

namespace AlarmBridge

open Json (Value)

/-- The part of a host that an entity belongs to. -/
inductive Platform
  | binarySensor
  | camera
deriving Repr, DecidableEq, Inhabited

def Platform.name : Platform → String
  | .binarySensor => "binary_sensor"
  | .camera => "camera"

/-- What the on state of a sensor means. -/
inductive DeviceClass
  | battery
  | door
  | gas
  | moisture
  | motion
  | occupancy
  | safety
  | smoke
deriving Repr, DecidableEq, Inhabited

def DeviceClass.name : DeviceClass → String
  | .battery => "battery"
  | .door => "door"
  | .gas => "gas"
  | .moisture => "moisture"
  | .motion => "motion"
  | .occupancy => "occupancy"
  | .safety => "safety"
  | .smoke => "smoke"

def DeviceClass.all : List DeviceClass :=
  [.battery, .door, .gas, .moisture, .motion, .occupancy, .safety, .smoke]

/-- What an entity is for, where it is not a device's main purpose. -/
inductive EntityCategory
  | diagnostic
deriving Repr, DecidableEq, Inhabited

def EntityCategory.name : EntityCategory → String
  | .diagnostic => "diagnostic"

/-- Who an entity is. -/
structure EntityInfo where
  uniqueId : String
  name : String
  platform : Platform
  systemId : UInt64
  deviceSerial : String
  deviceName : String
  deviceClass : Option DeviceClass
  category : Option EntityCategory
deriving Repr, DecidableEq, Inhabited

namespace EntityInfo

/-- The device itself, with its serial for the unique id. -/
def ofDevice (platform : Platform) (systemId : UInt64) (serial deviceName name : String) :
    EntityInfo :=
  ⟨serial, name, platform, systemId, serial, deviceName, none, none⟩

def withSuffix (info : EntityInfo) (suffix : String) : EntityInfo :=
  { info with uniqueId := s!"{info.uniqueId}-{suffix}" }

/-- Whether an event is addressed to the system and the device of an entity. -/
def accepts (info : EntityInfo) (e : PushEvent) : Bool :=
  e.systemId = info.systemId && e.sensorSerial.all (· = info.deviceSerial)

def toJson (info : EntityInfo) : Value :=
  .object [("unique_id", .text info.uniqueId), ("name", .text info.name),
    ("platform", .text info.platform.name), ("system_id", .number info.systemId.toNat),
    ("device_serial", .text info.deviceSerial), ("device_name", .text info.deviceName),
    ("device_class", Value.ofText? (info.deviceClass.map DeviceClass.name)),
    ("category", Value.ofText? (info.category.map EntityCategory.name))]

end EntityInfo

end AlarmBridge
