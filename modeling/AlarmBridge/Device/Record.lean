import AlarmBridge.Device.DeviceType

/-! What an account says of its devices: sensors with two flags, and cameras with a status and a
privacy shutter for each arm state. -/

set_option autoImplicit false

namespace AlarmBridge

/-- What is known of a sensor. -/
structure SensorRecord where
  serial : String
  name : String
  deviceType : DeviceType
  triggered : Bool
  lowBattery : Bool
deriving Repr, DecidableEq, Inhabited

/-- What is known of a camera. -/
structure CameraRecord where
  serial : String
  name : String
  cameraType : CameraType
  status : String
  subscriptionEnabled : Bool
  shutterOpenWhenOff : Bool
  shutterOpenWhenHome : Bool
  shutterOpenWhenAway : Bool
deriving Repr, DecidableEq, Inhabited

namespace CameraRecord

def isOnline (r : CameraRecord) : Bool := r.status = "online"

def isDoorbell (r : CameraRecord) : Bool := r.cameraType = .doorbell

/-- Whether a camera can be reached and is paid for. -/
def isAvailable (r : CameraRecord) : Bool := r.isOnline && r.subscriptionEnabled

end CameraRecord

/-- The address of the video of a camera at a width. -/
def videoUrl (serial : String) (width : Nat) : String :=
  s!"https://media.simplisafe.com/v1/{serial}/flv?x={width}&audioEncoding=AAC"

/-- The width at which video is asked for. -/
def defaultWidth : Nat := 1280

/-- The address of the video of a camera. -/
def CameraRecord.url (r : CameraRecord) : String := videoUrl r.serial defaultWidth

end AlarmBridge
