import AlarmBridge.Device.ArmState
import AlarmBridge.Device.Record
import AlarmBridge.Json.Shape
import AlarmBridge.Json.Value

/-! The dump of an account: its access token and its systems with their devices, read from JSON and
written as JSON.  `Snapshot.ofText?` undoes the text of `Snapshot.toJson`. -/

set_option autoImplicit false

namespace AlarmBridge

open Json (Reader Shape Value)

/-- A family of cameras: its name, or an object with the name and null. -/
def CameraType.read : Reader CameraType := do
  match ← Reader.peekPastSpaces with
  | none => throw .endInValue
  | some c =>
    if c = '"' then
      Reader.skip
      return ofText (String.ofList (← Reader.stringBody))
    else if c = '\x7b' then
      Reader.skip
      match ← Reader.peekPastSpaces with
      | none => throw .endInObject
      | some d => if d = '"' then Reader.skip else throw .keyNotString
      let name ← Reader.stringBody
      Reader.colon
      Reader.unit
      match ← Reader.peekPastSpaces with
      | none => throw .endInObject
      | some d => if d = '\x7d' then Reader.skip else throw .expectedValue
      return ofText (String.ofList name)
    else throw .expectedValue

def SensorRecord.typeField : Json.Field SensorRecord :=
  .of "type" .required Reader.uint16 fun n r => { r with deviceType := .ofCode n }

def SensorRecord.shape : Shape SensorRecord where
  name := "SensorRecord"
  blank := ⟨"", "", .unknown, false, false⟩
  fields := [
    .of "serial" .required Reader.text fun s r => { r with serial := s },
    .of "name" .required Reader.text fun s r => { r with name := s },
    typeField,
    .of "triggered" .defaulted Reader.boolean fun b r => { r with triggered := b },
    .of "low_battery" .defaulted Reader.boolean fun b r => { r with lowBattery := b }]

def CameraRecord.cameraTypeField : Json.Field CameraRecord :=
  .of "camera_type" .defaulted CameraType.read fun t r => { r with cameraType := t }

def CameraRecord.shape : Shape CameraRecord where
  name := "CameraRecord"
  blank := ⟨"", "", .camera, "", false, false, false, false⟩
  fields := [
    .of "serial" .required Reader.text fun s r => { r with serial := s },
    .of "name" .required Reader.text fun s r => { r with name := s },
    cameraTypeField,
    .of "status" .defaulted Reader.text fun s r => { r with status := s },
    .of "subscription_enabled" .defaulted Reader.boolean
      fun b r => { r with subscriptionEnabled := b },
    .of "shutter_open_when_off" .defaulted Reader.boolean
      fun b r => { r with shutterOpenWhenOff := b },
    .of "shutter_open_when_home" .defaulted Reader.boolean
      fun b r => { r with shutterOpenWhenHome := b },
    .of "shutter_open_when_away" .defaulted Reader.boolean
      fun b r => { r with shutterOpenWhenAway := b }]

/-- What a dump says of one system. -/
structure SystemSnapshot where
  systemId : UInt64
  version : UInt8
  state : ArmState
  sensors : List SensorRecord
  cameras : List CameraRecord
deriving Repr, DecidableEq, Inhabited

def SystemSnapshot.stateField : Json.Field SystemSnapshot :=
  .of "state" .required Reader.text fun s r => { r with state := .ofText s }

def SystemSnapshot.sensorsField : Json.Field SystemSnapshot :=
  .of "sensors" .defaulted (Reader.list SensorRecord.shape.read) fun l r => { r with sensors := l }

def SystemSnapshot.camerasField : Json.Field SystemSnapshot :=
  .of "cameras" .defaulted (Reader.list CameraRecord.shape.read) fun l r => { r with cameras := l }

def SystemSnapshot.shape : Shape SystemSnapshot where
  name := "SystemSnapshot"
  blank := ⟨0, 0, .unknown, [], []⟩
  fields := [
    .of "system_id" .required Reader.uint64 fun n r => { r with systemId := n },
    .of "version" .required Reader.uint8 fun n r => { r with version := n },
    stateField, sensorsField, camerasField]

/-- What a dump says of an account. -/
structure Snapshot where
  accessToken : String
  systems : List SystemSnapshot
deriving Repr, DecidableEq, Inhabited

def Snapshot.systemsField : Json.Field Snapshot :=
  .of "systems" .required (Reader.list SystemSnapshot.shape.read) fun l r => { r with systems := l }

def Snapshot.shape : Shape Snapshot where
  name := "SessionSnapshot"
  blank := ⟨"", []⟩
  fields := [
    .of "access_token" .defaulted Reader.text fun s r => { r with accessToken := s },
    systemsField]

def Snapshot.ofText? (s : List Char) : Except Json.Fault Snapshot := Json.decode shape.read s

def SensorRecord.toJson (r : SensorRecord) : Value :=
  .object [("serial", .text r.serial), ("name", .text r.name),
    ("type", .number r.deviceType.code.toNat), ("triggered", .boolean r.triggered),
    ("low_battery", .boolean r.lowBattery)]

def CameraRecord.toJson (r : CameraRecord) : Value :=
  .object [("serial", .text r.serial), ("name", .text r.name),
    ("camera_type", .text r.cameraType.name), ("status", .text r.status),
    ("subscription_enabled", .boolean r.subscriptionEnabled),
    ("shutter_open_when_off", .boolean r.shutterOpenWhenOff),
    ("shutter_open_when_home", .boolean r.shutterOpenWhenHome),
    ("shutter_open_when_away", .boolean r.shutterOpenWhenAway)]

def SystemSnapshot.toJson (s : SystemSnapshot) : Value :=
  .object [("system_id", .number s.systemId.toNat), ("version", .number s.version.toNat),
    ("state", .text s.state.name), ("sensors", .list (s.sensors.map SensorRecord.toJson)),
    ("cameras", .list (s.cameras.map CameraRecord.toJson))]

def Snapshot.toJson (s : Snapshot) : Value :=
  .object [("access_token", .text s.accessToken),
    ("systems", .list (s.systems.map SystemSnapshot.toJson))]

end AlarmBridge
