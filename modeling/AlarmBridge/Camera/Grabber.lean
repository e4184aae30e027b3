import AlarmBridge.Camera.Input
import AlarmBridge.Stream.Guard

/-! What takes frames and opens streams for cameras.  A grabber is given what its next calls will
come to, and keeps a record of the calls made. -/

set_option autoImplicit false

namespace AlarmBridge

/-- What taking a frame comes to. -/
inductive FrameOutcome
  | image (b : Bytes)
  | failed (f : Failure)
  | crashed
deriving Repr, DecidableEq, Inhabited

/-- A frame to come: what it comes to, and after how many milliseconds. -/
structure Frame where
  outcome : FrameOutcome
  delay : Nat
deriving Repr, DecidableEq, Inhabited

/-- A stream to come: a process, or the failure to open one. -/
abbrev StreamOffer := Except Failure StreamProcess

/-- A call to a grabber, or the release of a process it opened. -/
inductive GrabberCall
  | grab (input : StreamInput)
  | opened (input : StreamInput) (success : Bool)
  | release (how : Release)
deriving Repr, DecidableEq, Inhabited

structure Grabber where
  frames : List Frame
  streams : List StreamOffer
  calls : List GrabberCall
deriving Inhabited

namespace Grabber

/-- What a frame comes to when none is to come. -/
def noFrame : Frame := ⟨.failed (.process "no frame queued"), 0⟩

/-- What a stream comes to when none is to come. -/
def noStream : StreamOffer := .error (.spawn "no stream queued")

def grab (g : Grabber) (input : StreamInput) : Frame × Grabber :=
  (g.frames.head?.getD noFrame,
    { g with frames := g.frames.tail, calls := g.calls ++ [.grab input] })

def openStream (g : Grabber) (input : StreamInput) : StreamOffer × Grabber :=
  let offer := g.streams.head?.getD noStream
  (offer, { g with
    streams := g.streams.tail
    calls := g.calls ++ [.opened input offer.toBool] })

def noteReleases (g : Grabber) (releases : List Release) : Grabber :=
  { g with calls := g.calls ++ releases.map .release }

/-- The input of the last call that had one. -/
def lastInput? (g : Grabber) : Option StreamInput :=
  g.calls.reverse.findSome? fun c =>
    match c with
    | .grab input => some input
    | .opened input _ => some input
    | .release _ => none

end Grabber

end AlarmBridge
