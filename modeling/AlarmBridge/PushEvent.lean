import AlarmBridge.Json.Shape
import AlarmBridge.Json.Value

/-! Push events: what happened, in which system and, if it concerns one device, at which.  Two kinds
drive sensors; any other is carried under its own name. -/

set_option autoImplicit false

namespace AlarmBridge

open Json (Field Reader Shape Value)

/-- What happened. -/
inductive EventType
  | motionDetected
  | doorbellDetected
  | other (name : String)
deriving Repr, DecidableEq, Inhabited

namespace EventType

def name : EventType → String
  | motionDetected => "camera_motion_detected"
  | doorbellDetected => "doorbell_detected"
  | other name => name

def ofName (s : String) : EventType :=
  if s = motionDetected.name then motionDetected
  else if s = doorbellDetected.name then doorbellDetected
  else other s

end EventType

structure PushEvent where
  eventType : EventType
  systemId : UInt64
  sensorSerial : Option String
  /-- The time the event gives; none stands for the moment it is received. -/
  timestamp : Option Time.Timestamp
  info : String
deriving Repr, DecidableEq, Inhabited

namespace PushEvent

/-- An event of the moment. -/
def occurring (eventType : EventType) (systemId : UInt64) (sensorSerial : Option String) :
    PushEvent :=
  ⟨eventType, systemId, sensorSerial, none, ""⟩

def shape : Shape PushEvent where
  name := "PushEvent"
  blank := ⟨.other "", 0, none, none, ""⟩
  fields := [
    .of "event_type" .required Reader.text fun s e => { e with eventType := .ofName s },
    .of "system_id" .required Reader.uint64 fun n e => { e with systemId := n },
    .of "sensor_serial" .defaulted (Reader.nullable Reader.text)
      fun s e => { e with sensorSerial := s },
    .of "timestamp" .defaulted Reader.timestamp fun t e => { e with timestamp := some t },
    .of "info" .defaulted Reader.text fun s e => { e with info := s }]

def ofText? (s : List Char) : Except Json.Fault PushEvent := Json.decode shape.read s

/-- The time of an event to the second. -/
def timeText (e : PushEvent) : String :=
  match e.timestamp with
  | none => "now"
  | some t => String.ofList (t.secondText ++ ['Z'])

def describe (e : PushEvent) : String :=
  let device := match e.sensorSerial with
    | none => ""
    | some serial => s!", device {serial}"
  s!"{e.eventType.name} (system {e.systemId}{device} at {e.timeText})"

def toJson (e : PushEvent) : Value :=
  let timestamp := match e.timestamp with
    | none => "now"
    | some t => String.ofList (t.text ['Z'])
  .object [("event_type", .text e.eventType.name), ("system_id", .number e.systemId.toNat),
    ("sensor_serial", Value.ofText? e.sensorSerial), ("timestamp", .text timestamp),
    ("info", .text e.info)]

end PushEvent

end AlarmBridge
