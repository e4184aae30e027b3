import AlarmBridge.Daemon.Start
import AlarmBridge.Mqtt

/-! The daemon as a program: it starts as planned, shows its log on the error output and its
messages, a topic and a payload a line, on the output, and reads the snapshot file again and
again. -/

set_option autoImplicit false

namespace AlarmBridge.Daemon

/-- What the operating system refused. -/
def ioErrorOf : IO.Error → IoError
  | .noFileOrDirectory _ _ _ => .os .noEntry
  | .permissionDenied _ _ _ => .os .permissionDenied
  | .inappropriateType _ _ _ => .os .isADirectory
  | e => .described .other (toString e)

/-- Reads a file; one whose path is no Unicode cannot be named here and counts as missing. -/
def readBytes (path : OsText) : IO (Except IoError Bytes) := do
  match path.text? with
  | none => return .error (.os .noEntry)
  | some path =>
    try
      return .ok (← IO.FS.readBinFile path).toList
    catch e => return .error (ioErrorOf e)

/-- The variables that the program has been started with, byte by byte. -/
def environment : IO Environment := do
  let block ← readBytes (.ofString "/proc/self/environ")
  return .ofBlock (block.toOption.getD [])

/-- Shows log records on the error output. -/
def showLog (log : List Log.Record) : IO Unit := log.forM fun r => IO.eprintln r.render

/-- Shows the messages for what has been announced since `before`. -/
def showMessages (d : Running) (before : Nat) : IO Unit := do
  let publisher := Mqtt.Publisher.of d.config.mqtt.topicBase (d.bridge.entities.map (·.info))
  let changes := (d.bridge.outbox.drop before).map (·.change)
  for m in publisher.messages changes do
    IO.println (m.topic ++ " " ++ String.ofList m.payload.render)
  showLog ((publisher.refusals changes).filter d.filter.shows)

/-- Reads the snapshot file at each interval. -/
partial def watch (d : Running) : IO Unit := do
  IO.sleep (UInt32.ofNat (min (d.config.refreshInterval.toNat * 1000) (UInt32.size - 1)))
  let (next, log) := d.refresh (← readBytes d.source.path)
  showLog log
  showMessages next d.bridge.outbox.length
  watch next

/-- Runs the daemon with the arguments of its command line. -/
def serve (args : List String) : IO UInt32 := do
  let dotenv := (← readBytes (.ofString ".env")).toOption.bind Text.decode
  match plan (← environment) (some (.ofString "/")) dotenv args with
  | .error code => return UInt32.ofNat code
  | .ok plan =>
    let (started, log) := plan.start (← readBytes (sourceOf plan.config).path)
    showLog log
    match started with
    | .ended code => return UInt32.ofNat code
    | .running daemon =>
      showMessages daemon 0
      watch daemon
      return 0

end AlarmBridge.Daemon

/-- The daemon as a program. -/
def main (args : List String) : IO UInt32 := AlarmBridge.Daemon.serve args
