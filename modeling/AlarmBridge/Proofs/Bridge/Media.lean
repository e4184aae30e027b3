import AlarmBridge.Proofs.Bridge.Bare
import AlarmBridge.Bridge.Camera

/-! Still images and streams, operation by operation.  Asking for a still image plans a frame,
unless the shutter is closed, and waits; asking for a stream opens it, lets its copy take its time,
and notes how the process was released. -/

set_option autoImplicit false

namespace AlarmBridge

/-- How long a caller waits for a frame. -/
def Frame.waited (frame : Frame) (timeout : Option Nat) : Nat :=
  (timeout.map (min · frame.delay)).getD frame.delay

namespace Bridge

/-- What the next frame comes to. -/
def nextFrame (b : Bridge) : Frame := b.grabber.frames.head?.getD Grabber.noFrame

/-- A bridge that has started to take a frame for a camera. -/
def grabbing (b : Bridge) (i : Nat) (e : Entity) : Bridge := { b with
  grabber := (b.grabber.grab (b.streamInput e)).2
  agenda := b.agenda.plan (b.now + b.nextFrame.delay) (.frame i b.nextFrame.outcome) }

/-- A request for a still image that has begun: until when its caller waits, and what it gets
then. -/
structure Request where
  ends : Nat
  answer : Still

/-- Begins a request for a still image, for a caller that waits no longer than a timeout. -/
def ask (b : Bridge) (i : Nat) (e : Entity) (timeout : Option Nat) : Bridge × Request :=
  if b.shutterOpen e then
    (b.grabbing i e, ⟨b.now + b.nextFrame.waited timeout,
      if timeout.any (· ≤ b.nextFrame.delay) then .abandoned
      else FrameOutcome.still b.nextFrame.outcome⟩)
  else (b, ⟨b.now, .image (b.cachedImage? i)⟩)

/-- What the next stream comes to. -/
def nextStream (b : Bridge) : StreamOffer := b.grabber.streams.head?.getD Grabber.noStream

/-- A bridge that has asked for a stream. -/
def opening (b : Bridge) (e : Entity) : Bridge :=
  { b with grabber := (b.grabber.openStream (b.streamInput e)).2 }

/-- A bridge after a stream has been served and its process released. -/
def afterStream (b : Bridge) (run : StreamRun) : Bridge :=
  let noted := (b.runBefore run.time).note run.log
  { noted with grabber := noted.grabber.noteReleases run.releases }.runUntil run.time

/-- What a stream request comes to after a copy that has come to a result or to none. -/
def Streamed.after : Option (Except StreamCause Nat) → Streamed
  | none => .abandoned
  | some (.ok count) => .delivered count
  | some (.error cause) => .failed (.stream cause)

variable {b : Bridge}

theorem fetch_of_shut {e : Entity} (h : b.shutterOpen e = false) (i : Nat) (timeout : Option Nat) :
    b.fetch i e timeout = (b, .image (b.cachedImage? i)) := by
  simp [fetch, h]

theorem fetch_of_open {e : Entity} (h : b.shutterOpen e = true) (i : Nat) (timeout : Option Nat) :
    (b.fetch i e timeout).1 =
      (b.grabbing i e).runUntil (b.now + b.nextFrame.waited timeout) := by
  have hframe : (b.grabber.grab (b.streamInput e)).1 = b.nextFrame := rfl
  simp only [fetch, h, hframe]
  cases timeout with
  | none => rfl
  | some wait =>
    by_cases hwait : wait ≤ b.nextFrame.delay
    · have hwaited : b.nextFrame.waited (some wait) = wait := Nat.min_eq_left hwait
      simp only [hwait, hwaited]
      rfl
    · have hwaited : b.nextFrame.waited (some wait) = b.nextFrame.delay :=
        Nat.min_eq_right (Nat.le_of_not_le hwait)
      simp only [hwait, hwaited]
      rfl

theorem still_of_open {e : Entity} (h : b.shutterOpen e = true) (i : Nat) (timeout : Option Nat) :
    (b.fetch i e timeout).2 =
      if timeout.any (· ≤ b.nextFrame.delay) then .abandoned
      else FrameOutcome.still b.nextFrame.outcome := by
  have hframe : (b.grabber.grab (b.streamInput e)).1 = b.nextFrame := rfl
  simp only [fetch, h, hframe]
  cases timeout with
  | none => rfl
  | some wait => by_cases hwait : wait ≤ b.nextFrame.delay <;> simp [hwait]

theorem stream_of_error {f : Failure} (h : b.nextStream = .error f) (e : Entity) (w : Writer)
    (timeout : Option Nat) : b.stream e w timeout = (b.opening e, .failed f, w) := by
  have hopen : (b.grabber.openStream (b.streamInput e)).1 = .error f := h
  simp only [stream, hopen]
  rfl

theorem stream_of_ok {process : StreamProcess} (h : b.nextStream = .ok process) (e : Entity)
    (w : Writer) (timeout : Option Nat) :
    let run := process.serve e.info.uniqueId (timeout.map (b.now + ·)) b.now w
    b.stream e w timeout = ((b.opening e).afterStream run, .after run.result?, run.writer) := by
  intro run
  have hopen : (b.grabber.openStream (b.streamInput e)).1 = .ok process := h
  simp only [stream, hopen]
  split <;> next hresult =>
    rw [show run.result? = _ from hresult]
    rfl

end Bridge

end AlarmBridge
