/-! Log records: a level, the part of the program that speaks, and a text. -/

set_option autoImplicit false

namespace AlarmBridge.Log

/-- How important a record is, the most important first. -/
inductive Level
  | error
  | warn
  | info
  | debug
  | trace
deriving Repr, DecidableEq, Inhabited

namespace Level

def name : Level → String
  | error => "ERROR"
  | warn => "WARN"
  | info => "INFO"
  | debug => "DEBUG"
  | trace => "TRACE"

/-- The place of a level, the most important being 1. -/
def rank : Level → Nat
  | error => 1
  | warn => 2
  | info => 3
  | debug => 4
  | trace => 5

end Level

/-- The part of the program that a record comes from. -/
inductive Source
  | daemon
  | session
  | system
  | entities
  | sensors
  | clears
  | cameras
  | streams
  | bridge
  | snapshots
  | push
  | mqtt
deriving Repr, DecidableEq, Inhabited

/-- The name by which log filters select a part of the program. -/
def Source.path : Source → String
  | .daemon => "simplisafe_bridge"
  | .session => "simplisafe_bridge::session"
  | .system => "simplisafe_bridge::vendor::system"
  | .entities => "simplisafe_bridge::entity::notifier"
  | .sensors => "simplisafe_bridge::binary_sensor"
  | .clears => "simplisafe_bridge::binary_sensor::transient"
  | .cameras => "simplisafe_bridge::camera"
  | .streams => "simplisafe_bridge::camera::stream"
  | .bridge => "simplisafe_bridge::coordinator"
  | .snapshots => "simplisafe_bridge::input::snapshot"
  | .push => "simplisafe_bridge::input::push"
  | .mqtt => "simplisafe_bridge::output::mqtt"

structure Record where
  level : Level
  source : Source
  text : String
deriving Repr, DecidableEq, Inhabited

/-- A record with its level in front. -/
def Record.render (r : Record) : String := s!"{r.level.name} {r.text}"

end AlarmBridge.Log
