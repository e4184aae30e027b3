import AlarmBridge.Bridge.Step

/-! An entity on its own: a bridge whose only entity it is, with the steps that reach it
directly. -/

set_option autoImplicit false

namespace AlarmBridge.Bridge

/-- One thing that happens to an entity on its own. -/
inductive SoloStep
  | look
  | write (value : Bool)
  | trigger
  | deliver (e : PushEvent)
  | refresh
  | publish
  | advance (ms : Nat)
  | setRecord (systemId : UInt64) (r : SensorRecord)
  /-- Somebody is told of the entity under an id from now on. -/
  | announceAs (uniqueId : String)
  /-- Announcements are received, or received again. -/
  | receive
  | close

/-- What a step of an entity on its own answers. -/
inductive SoloAnswer
  | done
  | wrote (flipped : Bool)
  | state (isOn : Bool) (pending : Nat)
  | overflow
deriving Repr, DecidableEq, Inhabited

/-- A bridge with one entity, which nobody is told of. -/
def solo (s : Session) (e : Entity) (clearDelay : Nat) : Bridge :=
  withEntities s [e] clearDelay ⟨[], [], []⟩

/-- What an entity on its own shows once it has been turned on, unless the clock could not serve
it. -/
def soloState (b : Bridge) : SoloAnswer :=
  if b.clearTime?.isSome then .state (b.entities[0]?.any (·.cell.value)) (b.pendingClears 0)
  else .overflow

/-- A step of an entity on its own, before what is due at its time. -/
def soloAct (b : Bridge) : SoloStep → Bridge × SoloAnswer
  | .look => (b, .done)
  | .write value => (b.write 0 value, .wrote (b.entities[0]?.any (·.cell.value ≠ value)))
  | .trigger => (b.trigger 0, (b.trigger 0).soloState)
  | .deliver e =>
    let next := deliver e b 0
    (next, if b.isMomentary 0 then next.soloState else .done)
  | .refresh => (b.refresh, .done)
  | .publish => (b.publishAll, .done)
  | .advance ms => (b.runUntil (b.now + ms), .done)
  | .setRecord systemId r => ({ b with session := b.session.setSensor systemId r }, .done)
  | .announceAs uniqueId =>
    (b.modify 0 fun e => { e with cell := e.cell.announce uniqueId }, .done)
  | .receive => ({ b with listening := true }, .done)
  | .close => ({ b with listening := false }, .done)

/-- A step of an entity on its own, and what is due at its time. -/
def soloStep (b : Bridge) (s : SoloStep) : Bridge × SoloAnswer :=
  let next := b.soloAct s
  (next.1.settle, next.2)

def soloRun (b : Bridge) (steps : List SoloStep) : Bridge :=
  steps.foldl (fun b s => (b.soloStep s).1) b

end AlarmBridge.Bridge
