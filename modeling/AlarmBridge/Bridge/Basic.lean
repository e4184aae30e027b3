import AlarmBridge.Agenda
import AlarmBridge.Camera.Grabber
import AlarmBridge.Entity.Basic
import AlarmBridge.Sensor.Momentary
import AlarmBridge.Sensor.Polled

/-! The bridge: the entities registered for a session, the clock, what is due, and what has been
announced and logged.  Entities are addressed by their place in the order of registration, since ids
may be shared. -/

set_option autoImplicit false

namespace AlarmBridge

inductive Task
  | clear (entity : Nat)
  | frame (camera : Nat) (outcome : FrameOutcome)
deriving Repr, DecidableEq, Inhabited

/-- An announced change and the entity it comes from. -/
structure Notice where
  source : Nat
  change : StateChange
deriving Repr, DecidableEq, Inhabited

/-- The bridge at a moment. -/
structure Bridge where
  session : Session
  entities : List Entity
  /-- The milliseconds that momentary sensors stay on. -/
  clearDelay : Nat
  /-- The milliseconds since the start. -/
  now : Nat
  agenda : Agenda Task
  grabber : Grabber
  /-- Whether anybody receives announcements. -/
  listening : Bool
  outbox : List Notice
  log : List Log.Record

namespace Bridge

/-- The entities that a system's devices call for, cameras apart. -/
def sensorsOf (s : System) : List Entity :=
  if s.isLegacy then []
  else
    s.sensors.values.flatMap (Entity.ofSensor s.systemId) ++
      s.cameras.values.flatMap (Entity.momentaryOf s.systemId)

def cameraOf (systemId : UInt64) (r : CameraRecord) : Entity where
  info := (EntityInfo.ofDevice .camera systemId r.serial r.name "Camera").withSuffix "camera"
  role := .camera none
  cell := .new r.isAvailable

def camerasOf (s : System) : List Entity :=
  if s.isLegacy then [] else s.cameras.values.map (cameraOf s.systemId)

/-- The entities of a session: the sensors of all systems, then the cameras of all systems. -/
def entitiesOf (s : Session) : List Entity :=
  s.systems.values.flatMap sensorsOf ++ s.systems.values.flatMap camerasOf

/-- The log lines of registering the entities of a session. -/
def setupLog (s : Session) : List Log.Record :=
  let legacy := s.systems.values.filter System.isLegacy
  let entities := (entitiesOf s).length
  let cameras := (s.systems.values.flatMap camerasOf).length
  (legacy.map fun system =>
      ⟨.info, .sensors, s!"Skipping sensor setup for V2 system: {system.systemId}"⟩) ++
    (legacy.map fun system =>
      ⟨.info, .cameras, s!"Skipping camera setup for V2 system: {system.systemId}"⟩) ++
    [⟨.info, .bridge, s!"Registered {entities} entities ({cameras} cameras) for entry {s.entryId}"⟩]

/-- The bridge with some entities of a session, nothing due and nothing announced. -/
def withEntities (s : Session) (entities : List Entity) (clearDelay : Nat) (grabber : Grabber) :
    Bridge where
  session := s
  entities := entities
  clearDelay := clearDelay
  now := 0
  agenda := []
  grabber := grabber
  listening := true
  outbox := []
  log := []

/-- The bridge of a session, with every entity announced under its unique id. -/
def setup (s : Session) (clearDelay : Nat) (grabber : Grabber) : Bridge :=
  let entities := (entitiesOf s).map fun e => { e with cell := e.cell.announce e.info.uniqueId }
  { withEntities s entities clearDelay grabber with log := setupLog s }

/-- The place of the first entity of an id. -/
def entity? (b : Bridge) (uniqueId : String) : Option Nat :=
  b.entities.findIdx? fun e => e.info.uniqueId = uniqueId

/-- The place of the first camera of an id. -/
def camera? (b : Bridge) (uniqueId : String) : Option Nat :=
  b.entities.findIdx? fun e => e.isCamera && e.info.uniqueId = uniqueId

def pendingClears (b : Bridge) (i : Nat) : Nat := b.agenda.countP fun d => d.task = .clear i

def note (b : Bridge) (records : List Log.Record) : Bridge := { b with log := b.log ++ records }

def modify (b : Bridge) (i : Nat) (f : Entity → Entity) : Bridge :=
  { b with entities := b.entities.modify i f }

def announce (b : Bridge) (i : Nat) : Bridge :=
  match b.entities[i]?.bind fun e => e.cell.change? (.ofMillis b.now) with
  | none => b
  | some change =>
    if b.listening then { b with outbox := b.outbox ++ [⟨i, change⟩] }
    else b.note [⟨.debug, .entities,
      s!"[Entity] {change.uniqueId}: state receiver closed, dropping update"⟩]

def write (b : Bridge) (i : Nat) (value : Bool) : Bridge :=
  (b.modify i (·.write value)).announce i

def publishAll (b : Bridge) : Bridge := (List.range b.entities.length).foldl announce b

/-- Writes to an entity the state that the records give it, if it follows them. -/
def refreshEntity (b : Bridge) (i : Nat) : Bridge :=
  match b.entities[i]?.bind (·.reading? b.session) with
  | none => b
  | some value => b.write i value

/-- Writes to all entities that follow the records the states these give them. -/
def refresh (b : Bridge) : Bridge := (List.range b.entities.length).foldl refreshEntity b

def apply (b : Bridge) (s : Snapshot) : Bridge :=
  { b.note (b.session.ignored s) with session := b.session.apply s }

/-- The seconds below which deadlines lie, on a clock that starts at zero.  The clock of a host may
have run for longer, and then holds so much less. -/
def maxDeadline : Nat := Nat.pow 2 63 - 1

/-- The time of a clear planned now, if the clock can hold it. -/
def clearTime? (b : Bridge) : Option Nat :=
  if (b.now + b.clearDelay) / 1000 < maxDeadline then some (b.now + b.clearDelay) else none

/-- Turns a momentary sensor on and plans its clear, unless the clock cannot hold the deadline. -/
def trigger (b : Bridge) (i : Nat) : Bridge :=
  let b := b.write i true
  match b.clearTime? with
  | none => b
  | some time => { b with agenda := b.agenda.plan time (.clear i) }

def deliver (e : PushEvent) (b : Bridge) (i : Nat) : Bridge :=
  match b.entities[i]? with
  | none => b
  | some entity =>
    match entity.role with
    | .momentary _ =>
      (b.note [⟨.info, .clears,
        s!"[Sensor] {entity.info.name} ({entity.deviceName b.session}): {e.describe}"⟩]).trigger i
    | _ => b

/-- The places of the entities that an event is delivered to. -/
def receivers (b : Bridge) (e : PushEvent) : List Nat :=
  (List.range b.entities.length).filter fun i => b.entities[i]?.any (·.receives e)

/-- What delivering an event comes to: how many entities received it, or a deadline that the clock
cannot hold. -/
inductive Delivery
  | delivered (count : Nat)
  | overflow
deriving Repr, DecidableEq, Inhabited

def overflowMessage : String := "overflow when adding duration to instant"

/-- Delivers an event to every entity it is for.  The first that the clock cannot serve ends it. -/
def dispatch (b : Bridge) (e : PushEvent) : Bridge × Delivery :=
  match b.receivers e with
  | [] =>
    (b.note [⟨.debug, .bridge, s!"[Push] No entity subscribed to {e.describe}"⟩], .delivered 0)
  | i :: is =>
    if b.clearTime?.isSome then ((i :: is).foldl (deliver e) b, .delivered (i :: is).length)
    else (deliver e b i, .overflow)

def perform (b : Bridge) (task : Task) : Bridge :=
  match task with
  | .clear i =>
    let b := b.write i false
    match b.entities[i]? with
    | none => b
    | some entity => b.note [⟨.debug, .clears, s!"[Sensor] {entity.info.uniqueId} cleared"⟩]
  | .frame i (.image image) => b.modify i (·.keepImage image)
  | .frame _ _ => b

/-- Does one due thing at its time. -/
def performDue (b : Bridge) (d : Due Task) : Bridge :=
  { b with now := max b.now d.time, agenda := b.agenda.tail }.perform d.task

/-- Lets the clock run to a time, doing in order what is due by then. -/
def runUntil (b : Bridge) (time : Nat) : Bridge :=
  let b := (b.agenda.dueBy time).foldl performDue b
  { b with now := max b.now time }

/-- Lets the clock run up to a time without what is due just then. -/
def runBefore (b : Bridge) (time : Nat) : Bridge :=
  if time = 0 then b
  else
    let b := (b.agenda.dueBy (time - 1)).foldl performDue b
    { b with now := max b.now time }

end Bridge

end AlarmBridge
