import AlarmBridge.Config
import AlarmBridge.Entity.Info
import AlarmBridge.Entity.StateCell
import AlarmBridge.Log

/-! State changes as retained messages.  Each change of a known entity becomes one message on the
topic of its id; a client refuses topics with wildcards. -/

set_option autoImplicit false

namespace AlarmBridge.Mqtt

open Json (Value)

def stateTopic (base uniqueId : String) : String := s!"{base}/{uniqueId}/state"

def statePayload (info : EntityInfo) (c : StateChange) : Value :=
  .object [
    ("unique_id", .text info.uniqueId), ("name", .text info.name),
    ("platform", .text info.platform.name), ("device", .text info.deviceName),
    ("state", .text (if c.isOn then "on" else "off")),
    ("device_class", Value.ofText? (info.deviceClass.map DeviceClass.name)),
    ("entity_category", Value.ofText? (info.category.map EntityCategory.name)),
    ("attributes", .object [
      ("system_id", .number info.systemId.toNat), ("serial", .text info.deviceSerial),
      ("version", .number c.version.toNat),
      ("updated_at", .text (String.ofList (c.timestamp.text ['+', '0', '0', ':', '0', '0'])))])]

/-- How often a message is delivered. -/
inductive Delivered
  | atMostOnce
  | atLeastOnce
  | exactlyOnce
deriving Repr, DecidableEq, Inhabited

/-- A message handed to the broker, which keeps the last retained one of each topic. -/
structure Message where
  topic : String
  delivered : Delivered
  retained : Bool
  payload : Value

/-- What turns changes into messages: the start of all topics, the entities by id, and the topics
that its client takes messages on. -/
structure Publisher where
  topicBase : String
  entities : Roster String EntityInfo
  takes : String → Bool

namespace Publisher

/-- Whether a topic can be published on: it has no wildcards. -/
def accepts (topic : String) : Bool := !topic.toList.any Config.isWildcard

/-- A publisher of some entities; of those that share an id it knows the last. -/
def of (topicBase : String) (infos : List EntityInfo) : Publisher :=
  ⟨topicBase, .ofList (·.uniqueId) infos, accepts⟩

/-- What becomes of one change: a message, or the line logged instead. -/
def publish (p : Publisher) (c : StateChange) : Except Log.Record Message :=
  match p.entities.get? c.uniqueId with
  | none => .error ⟨.warn, .mqtt, s!"[MQTT] State for unknown entity {c.uniqueId}"⟩
  | some info =>
    let topic := stateTopic p.topicBase c.uniqueId
    if p.takes topic then .ok ⟨topic, .atLeastOnce, true, statePayload info c⟩
    else .error ⟨.warn, .mqtt, "[MQTT] " ++ (Failure.mqtt (.rejected topic)).message⟩

def messages (p : Publisher) (cs : List StateChange) : List Message :=
  cs.filterMap fun c => (p.publish c).toOption

/-- The lines logged for the changes that become no message. -/
def refusals (p : Publisher) (cs : List StateChange) : List Log.Record :=
  cs.filterMap fun c =>
    match p.publish c with
    | .ok _ => none
    | .error line => some line

end Publisher

end AlarmBridge.Mqtt
