import AlarmBridge.Camera.Input
import AlarmBridge.Failure
import AlarmBridge.Stream.Guard
import AlarmBridge.Text.Blank

/-! Frames and streams taken with the ffmpeg program: the arguments of each call and what the
behaviour of the process comes to. -/

set_option autoImplicit false

namespace AlarmBridge

namespace Ffmpeg

/-- The content type of streams where nothing else is configured. -/
def defaultContentType : String := "multipart/x-mixed-replace;boundary=ffmpeg"

def grabArgs (i : StreamInput) : List String :=
  i.args ++
    ["-an", "-frames:v", "1", "-c:v", "mjpeg", "-f", "image2pipe", "-loglevel", "error", "-"]

def streamArgs (i : StreamInput) : List String :=
  i.args ++ ["-an", "-c:v", "mjpeg", "-q:v", "5", "-f", "mpjpeg", "-loglevel", "error", "-"]

inductive SpawnFault
  | nulInArgument
  | os (code : OsCode)
deriving Repr, DecidableEq, Inhabited

def SpawnFault.message : SpawnFault → String
  | nulInArgument => "nul byte found in provided data"
  | os code => (IoError.os code).message

/-- Why a program cannot be started with some arguments, if `missing` tells why it cannot be at
all. -/
def spawnFault? (missing : Option OsCode) (args : List String) : Option SpawnFault :=
  if args.any fun a => a.toList.any (· = Char.ofNat 0) then some .nulInArgument
  else missing.map .os

/-- A process that ran: for how many milliseconds if it ended, whether with success, and what it
wrote. -/
structure ProcessRun where
  duration : Option Nat
  success : Bool
  stdout : Bytes
  stderr : Bytes
deriving Repr, DecidableEq, Inhabited

/-- The frame that a process took within a number of seconds. -/
def grabResult (timeoutSecs : UInt64) (spawn : Except SpawnFault ProcessRun) :
    Except Failure Bytes :=
  match spawn with
  | .error fault => .error (.spawn fault.message)
  | .ok run =>
    if !run.duration.any (· < timeoutSecs.toNat * 1000) then .error (.timeout timeoutSecs)
    else if !run.success then
      .error (.process (String.ofList (Text.trim (Text.decodeLossy run.stderr))))
    else if run.stdout.isEmpty then .error .emptyFrame
    else .ok run.stdout

/-- What the output of a process is as a stream. -/
def streamProcess (run : ProcessRun) : StreamProcess :=
  let output := if run.stdout.isEmpty then [] else [.bytes run.stdout]
  ⟨output ++ (if run.duration.isSome then [] else [.hang]), none⟩

/-- The stream that a process starts. -/
def openResult (spawn : Except SpawnFault ProcessRun) : Except Failure StreamProcess :=
  match spawn with
  | .error fault => .error (.spawn fault.message)
  | .ok run => .ok (streamProcess run)

end Ffmpeg

end AlarmBridge
