import AlarmBridge.Bridge.Camera

/-! The steps of a bridge and their answers.  After each step what is due at its time is done, so
between steps nothing due lies behind the clock. -/

set_option autoImplicit false

namespace AlarmBridge.Bridge

/-- One thing that happens to a bridge. -/
inductive Step
  | look
  | publishAll
  | refresh
  | apply (s : Snapshot)
  | poll (text : List Char)
  | push (text : List Char)
  | dispatch (e : PushEvent)
  | deliver (entity : Nat) (e : PushEvent)
  | advance (ms : Nat)
  | fetch (camera : Nat) (timeout : Option Nat)
  | stream (camera : Nat) (w : Writer) (timeout : Option Nat)
  | queueFrame (frame : Frame)
  | queueStream (offer : StreamOffer)
  | setState (systemId : UInt64) (state : ArmState)
  | close

inductive Answer
  | done
  | failed (f : Failure)
  | delivery (d : Delivery)
  /-- Whether an entity is on and how many of its clears are pending. -/
  | state (isOn : Bool) (pending : Nat)
  | still (s : Still)
  | streamed (s : Streamed) (w : Writer)
deriving Inhabited

def stateOf (b : Bridge) (i : Nat) : Answer :=
  .state (b.entities[i]?.any (·.cell.value)) (b.pendingClears i)

/-- The answer to turning an entity on, which the clock may not be able to serve. -/
def afterTrigger (before after : Bridge) (i : Nat) : Answer :=
  if before.clearTime?.isSome then after.stateOf i else .delivery .overflow

def isMomentary (b : Bridge) (i : Nat) : Bool :=
  b.entities[i]?.any fun e =>
    match e.role with
    | .momentary _ => true
    | _ => false

/-- A step, before what is due at its time. -/
def act (b : Bridge) : Step → Bridge × Answer
  | .look => (b, .done)
  | .publishAll => (b.publishAll, .done)
  | .refresh => (b.refresh, .done)
  | .apply s => (b.apply s, .done)
  | .poll text =>
    match Snapshot.ofText? text with
    | .ok s => ((b.apply s).refresh, .done)
    | .error fault => (b, .failed (.snapshot (.malformed fault)))
  | .push text =>
    match PushEvent.ofText? text with
    | .ok e =>
      let next := b.dispatch e
      (next.1, .delivery next.2)
    | .error fault => (b, .failed (.push (.malformed fault)))
  | .dispatch e =>
    let next := b.dispatch e
    (next.1, .delivery next.2)
  | .deliver i e =>
    let next := deliver e b i
    (next, if b.isMomentary i then afterTrigger b next i else next.stateOf i)
  | .advance ms => (b.runUntil (b.now + ms), .done)
  | .fetch i timeout =>
    match b.entities[i]? with
    | none => (b, .done)
    | some e =>
      let next := b.fetch i e timeout
      (next.1, .still next.2)
  | .stream i w timeout =>
    match b.entities[i]? with
    | none => (b, .done)
    | some e =>
      let next := b.stream e w timeout
      (next.1, .streamed next.2.1 next.2.2)
  | .queueFrame frame =>
    ({ b with grabber := { b.grabber with frames := b.grabber.frames ++ [frame] } }, .done)
  | .queueStream offer =>
    ({ b with grabber := { b.grabber with streams := b.grabber.streams ++ [offer] } }, .done)
  | .setState systemId state => ({ b with session := b.session.setState systemId state }, .done)
  | .close => ({ b with listening := false }, .done)

/-- Does what is due at the present time. -/
def settle (b : Bridge) : Bridge := b.runUntil b.now

/-- A step, and what is due at its time. -/
def step (b : Bridge) (s : Step) : Bridge × Answer :=
  let next := b.act s
  (next.1.settle, next.2)

def run (b : Bridge) (steps : List Step) : Bridge := steps.foldl (fun b s => (b.step s).1) b

end AlarmBridge.Bridge
