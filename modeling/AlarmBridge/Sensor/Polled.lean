import AlarmBridge.Entity.Basic

/-! Sensors that show a flag of a record: whether it is triggered, for types that have a device
class, and whether its battery is low, for types that have one. -/

set_option autoImplicit false

namespace AlarmBridge

namespace DeviceType

/-- The device class of the triggered flag of a type. -/
def triggeredClass? : DeviceType → Option DeviceClass
  | carbonMonoxide => some .gas
  | entry => some .door
  | glassBreak => some .safety
  | leak => some .moisture
  | motion => some .motion
  | siren => some .safety
  | smoke => some .smoke
  | _ => none

/-- The types that tell when their battery is low. -/
def batteryPowered : List DeviceType :=
  [carbonMonoxide, entry, glassBreak, keypad, leak, lockKeypad, motion, siren, smoke, temperature]

end DeviceType

namespace Entity

/-- The sensor for the triggered flag of a record. -/
def triggered (systemId : UInt64) (r : SensorRecord) (deviceClass : DeviceClass) : Entity where
  info := { EntityInfo.ofDevice .binarySensor systemId r.serial r.name r.name with
    deviceClass := some deviceClass }
  role := .polled .triggered
  cell := .new r.triggered

def battery (systemId : UInt64) (r : SensorRecord) : Entity where
  info := { (EntityInfo.ofDevice .binarySensor systemId r.serial r.name "Battery").withSuffix
      "battery" with
    deviceClass := some .battery
    category := some .diagnostic }
  role := .polled .lowBattery
  cell := .new r.lowBattery

/-- The sensors that a record calls for. -/
def ofSensor (systemId : UInt64) (r : SensorRecord) : List Entity :=
  (r.deviceType.triggeredClass?.map (triggered systemId r)).toList ++
    if r.deviceType ∈ DeviceType.batteryPowered then [battery systemId r] else []

end Entity

end AlarmBridge
