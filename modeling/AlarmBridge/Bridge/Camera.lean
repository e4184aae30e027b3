import AlarmBridge.Bridge.Basic

/-! Still images and streams of the cameras of a bridge.  While the privacy shutter is closed the
last image is served; otherwise a frame is taken, which is kept also when its caller has given
up. -/

set_option autoImplicit false

namespace AlarmBridge

/-- Whether the shutter is open under an arm state. -/
def CameraRecord.shutterOpen (r : CameraRecord) (state : ArmState) : Bool :=
  match state with
  | .off => r.shutterOpenWhenOff
  | .home => r.shutterOpenWhenHome
  | .away => r.shutterOpenWhenAway
  | _ => true

namespace Session

def shutterOpen (s : Session) (systemId : UInt64) (serial : String) : Bool :=
  match s.systems.get? systemId, s.camera? systemId serial with
  | some system, some r => r.shutterOpen system.state
  | _, _ => true

/-- What the video of a camera is read from. -/
def streamInput (s : Session) (systemId : UInt64) (serial : String) : StreamInput :=
  ⟨((s.camera? systemId serial).map CameraRecord.url).getD (videoUrl serial defaultWidth), s.token⟩

end Session

namespace Bridge

def shutterOpen (b : Bridge) (e : Entity) : Bool :=
  b.session.shutterOpen e.info.systemId e.info.deviceSerial

/-- What the video of an entity's camera is read from. -/
def streamInput (b : Bridge) (e : Entity) : StreamInput :=
  b.session.streamInput e.info.systemId e.info.deviceSerial

def cachedImage? (b : Bridge) (i : Nat) : Option Bytes := b.entities[i]?.bind Entity.image?

/-- What asking for a still image comes to. -/
inductive Still
  | image (b : Option Bytes)
  | failed (f : Failure)
  | abandoned
deriving Repr, DecidableEq, Inhabited

/-- What a frame is to the caller that waits for it. -/
def FrameOutcome.still : FrameOutcome → Still
  | .image b => .image (some b)
  | .failed f => .failed f
  | .crashed => .failed (.stream .grabCrashed)

/-- Asks a camera for a still image, waiting no longer than a timeout.  A frame that comes just at
the timeout comes too late. -/
def fetch (b : Bridge) (i : Nat) (e : Entity) (timeout : Option Nat) : Bridge × Still :=
  if !b.shutterOpen e then (b, .image (b.cachedImage? i))
  else
    let (frame, grabber) := b.grabber.grab (b.streamInput e)
    let ready := b.now + frame.delay
    let b := { b with
      grabber := grabber
      agenda := b.agenda.plan ready (.frame i frame.outcome) }
    match timeout with
    | none => (b.runUntil ready, FrameOutcome.still frame.outcome)
    | some wait =>
      if wait ≤ frame.delay then (b.runUntil (b.now + wait), .abandoned)
      else (b.runUntil ready, FrameOutcome.still frame.outcome)

/-- What asking for a stream comes to. -/
inductive Streamed
  | delivered (count : Nat)
  | failed (f : Failure)
  | abandoned
deriving Repr, DecidableEq, Inhabited

/-- Copies the stream of a camera into a writer, waiting no longer than a timeout. -/
def stream (b : Bridge) (e : Entity) (w : Writer) (timeout : Option Nat) :
    Bridge × Streamed × Writer :=
  let (offer, grabber) := b.grabber.openStream (b.streamInput e)
  let b := { b with grabber := grabber }
  match offer with
  | .error f => (b, .failed f, w)
  | .ok process =>
    let run := process.serve e.info.uniqueId (timeout.map (b.now + ·)) b.now w
    let b := (b.runBefore run.time).note run.log
    let b := { b with grabber := b.grabber.noteReleases run.releases }.runUntil run.time
    match run.result? with
    | none => (b, .abandoned, run.writer)
    | some (.ok count) => (b, .delivered count, run.writer)
    | some (.error cause) => (b, .failed (.stream cause), run.writer)

end Bridge

end AlarmBridge
