import AlarmBridge.Entity.Basic

/-! Sensors that an event of a camera turns on for a while: one for motion at each camera and one
for the bell of each doorbell. -/

set_option autoImplicit false

namespace AlarmBridge

namespace MomentaryKind

def label : MomentaryKind → String
  | motion => "Motion"
  | doorbell => "Doorbell"

/-- What is put after the serial in the unique id. -/
def suffix : MomentaryKind → String
  | motion => "motion"
  | doorbell => "doorbell"

def deviceClass : MomentaryKind → DeviceClass
  | motion => .motion
  | doorbell => .occupancy

end MomentaryKind

/-- The milliseconds that a momentary sensor stays on where nothing else is configured. -/
def defaultClearDelay : Nat := 30000

namespace Entity

def momentary (systemId : UInt64) (r : CameraRecord) (kind : MomentaryKind) : Entity where
  info := { (EntityInfo.ofDevice .binarySensor systemId r.serial r.name kind.label).withSuffix
      kind.suffix with
    deviceClass := some kind.deviceClass }
  role := .momentary kind
  cell := .new false

/-- The momentary sensors that a record calls for. -/
def momentaryOf (systemId : UInt64) (r : CameraRecord) : List Entity :=
  momentary systemId r .motion :: if r.isDoorbell then [momentary systemId r .doorbell] else []

end Entity

end AlarmBridge
