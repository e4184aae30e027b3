/-! Kinds of devices: the numeric codes of sensors and the names of camera families.  Codes and
names that are not listed stand for `unknown`. -/

set_option autoImplicit false

namespace AlarmBridge

/-- What a sensor is. -/
inductive DeviceType
  | keypad
  | keychainRemote
  | panicButton
  | motion
  | entry
  | glassBreak
  | carbonMonoxide
  | smoke
  | leak
  | temperature
  | camera
  | siren
  | doorbellChime
  | lock
  | lockKeypad
  | unknown
deriving Repr, DecidableEq, Inhabited

namespace DeviceType

def code : DeviceType → UInt16
  | keypad => 1
  | keychainRemote => 2
  | panicButton => 3
  | motion => 4
  | entry => 5
  | glassBreak => 6
  | carbonMonoxide => 7
  | smoke => 8
  | leak => 9
  | temperature => 10
  | camera => 12
  | siren => 13
  | doorbellChime => 15
  | lock => 16
  | lockKeypad => 253
  | unknown => 99

/-- The kinds that have a number of their own. -/
def known : List DeviceType :=
  [keypad, keychainRemote, panicButton, motion, entry, glassBreak, carbonMonoxide, smoke, leak,
    temperature, camera, siren, doorbellChime, lock, lockKeypad]

/-- The kind that a number stands for. -/
def ofCode (n : UInt16) : DeviceType := (known.find? fun t => t.code = n).getD unknown

theorem ofCode_code (t : DeviceType) : ofCode t.code = t := by cases t <;> rfl

def name : DeviceType → String
  | keypad => "keypad"
  | keychainRemote => "keychain_remote"
  | panicButton => "panic_button"
  | motion => "motion"
  | entry => "entry"
  | glassBreak => "glass_break"
  | carbonMonoxide => "carbon_monoxide"
  | smoke => "smoke"
  | leak => "leak"
  | temperature => "temperature"
  | camera => "camera"
  | siren => "siren"
  | doorbellChime => "doorbell_chime"
  | lock => "lock"
  | lockKeypad => "lock_keypad"
  | unknown => "unknown"

end DeviceType

inductive CameraType
  | camera
  | doorbell
  | unknown
deriving Repr, DecidableEq, Inhabited

namespace CameraType

def name : CameraType → String
  | camera => "camera"
  | doorbell => "doorbell"
  | unknown => "unknown"

/-- The family of exactly this name. -/
def ofName? (s : String) : Option CameraType :=
  [camera, doorbell, unknown].find? fun t => t.name = s

/-- The family that a text stands for. -/
def ofText (s : String) : CameraType := (ofName? s).getD unknown

theorem ofText_name (t : CameraType) : ofText t.name = t := by cases t <;> decide

end CameraType

end AlarmBridge
