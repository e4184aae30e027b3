/-! Arm states of a system.  A text stands for the state whose name it is, whatever the case of its
letters, and else for `unknown`. -/

set_option autoImplicit false

namespace AlarmBridge

/-- How a system is armed. -/
inductive ArmState
  | off
  | home
  | away
  | alarm
  | alarmCount
  | entryDelay
  | exitDelay
  | homeCount
  | awayCount
  | unknown
deriving Repr, DecidableEq, Inhabited

namespace ArmState

def name : ArmState → String
  | off => "off"
  | home => "home"
  | away => "away"
  | alarm => "alarm"
  | alarmCount => "alarm_count"
  | entryDelay => "entry_delay"
  | exitDelay => "exit_delay"
  | homeCount => "home_count"
  | awayCount => "away_count"
  | unknown => "unknown"

def all : List ArmState :=
  [off, home, away, alarm, alarmCount, entryDelay, exitDelay, homeCount, awayCount, unknown]

/-- The state of exactly this name. -/
def ofName? (s : String) : Option ArmState := all.find? fun t => t.name = s

/-- The state that a text stands for. -/
def ofText (s : String) : ArmState := (ofName? (s.map Char.toLower)).getD unknown

end ArmState

end AlarmBridge
