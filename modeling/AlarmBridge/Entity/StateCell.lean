import AlarmBridge.Time.Timestamp

/-! The on/off state of an entity with a version that counts its flips, wrapping at 2^32, and the
changes that are announced: one per write, whether or not the value flips. -/

set_option autoImplicit false

namespace AlarmBridge

/-- One announced state of an entity. -/
structure StateChange where
  uniqueId : String
  isOn : Bool
  version : UInt32
  timestamp : Time.Timestamp
deriving Repr, DecidableEq, Inhabited

/-- A value, the number of its flips, and the id under which it is announced, if it is. -/
structure StateCell where
  value : Bool
  version : UInt32
  announcedAs : Option String
deriving Repr, DecidableEq, Inhabited

namespace StateCell

/-- A new cell, which nobody is told of. -/
def new (value : Bool) : StateCell := ⟨value, 0, none⟩

def write (c : StateCell) (value : Bool) : StateCell :=
  if c.value = value then c else { c with value := value, version := c.version + 1 }

def announce (c : StateCell) (uniqueId : String) : StateCell :=
  { c with announcedAs := some uniqueId }

/-- What a cell announces of itself at a time. -/
def change? (c : StateCell) (time : Time.Timestamp) : Option StateChange :=
  c.announcedAs.map fun uniqueId => ⟨uniqueId, c.value, c.version, time⟩

@[simp] theorem value_write (c : StateCell) (v : Bool) : (c.write v).value = v := by
  unfold write; split <;> simp_all

@[simp] theorem announcedAs_write (c : StateCell) (v : Bool) :
    (c.write v).announcedAs = c.announcedAs := by
  unfold write; split <;> rfl

end StateCell

end AlarmBridge
