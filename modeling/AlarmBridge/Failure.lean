import AlarmBridge.IoError
import AlarmBridge.Json.Fault
import AlarmBridge.OsText

/-! What can go wrong in the bridge, by cause, and the message of each failure. -/

set_option autoImplicit false

namespace AlarmBridge

/-- Why a stream failed.  What the runtime says of a crash is not kept. -/
inductive StreamCause
  | released
  | read (e : IoError)
  | write (e : IoError)
  | flush (e : IoError)
  | grabCrashed
  | other (text : String)
deriving Repr, DecidableEq, Inhabited

def StreamCause.message : StreamCause → String
  | .released => "stream already released"
  | .read e => "read failed: " ++ e.message
  | .write e => "write failed: " ++ e.message
  | .flush e => "flush failed: " ++ e.message
  | .grabCrashed => "frame grab task failed"
  | .other text => text

/-- Why a snapshot cannot be used. -/
inductive SnapshotCause
  | unreadable (path : OsText) (e : IoError)
  | malformed (fault : Json.Fault)
  | other (text : String)
deriving Repr, DecidableEq, Inhabited

def SnapshotCause.message : SnapshotCause → String
  | .unreadable path e => path.shown ++ ": " ++ e.message
  | .malformed fault => fault.message
  | .other text => text

/-- What is wrong with the address of a server. -/
inductive UrlFault
  | empty
  | badCharacter
  | badAuthority
  | badFormat
  | tooLong
  | schemeTooLong
  | noHost
  | emptyHost
deriving Repr, DecidableEq, Inhabited

def UrlFault.message : UrlFault → String
  | .empty => "HTTP format error: empty string"
  | .badCharacter => "HTTP format error: invalid uri character"
  | .badAuthority => "HTTP format error: invalid authority"
  | .badFormat => "HTTP format error: invalid format"
  | .tooLong => "HTTP format error: uri too long"
  | .schemeTooLong => "HTTP format error: scheme too long"
  | .noHost => "URL error: No host name in the URL"
  | .emptyHost => "URL error: URL contains empty host name"

/-- Why a server cannot be reached. -/
inductive ConnectFault
  | unsupportedScheme
  | io (e : IoError)
  | refused (status : Nat)
  | other (text : String)
deriving Repr, DecidableEq, Inhabited

def ConnectFault.message : ConnectFault → String
  | .unsupportedScheme => "URL error: URL scheme not supported"
  | .io e => "IO error: " ++ e.message
  | .refused status => s!"HTTP error: {status}"
  | .other text => text

/-- Why the push channel failed. -/
inductive PushCause
  | malformed (fault : Json.Fault)
  | badUrl (fault : UrlFault)
  | badToken
  | connect (fault : ConnectFault)
  | read (text : String)
  | receiverGone
  | other (text : String)
deriving Repr, DecidableEq, Inhabited

def PushCause.message : PushCause → String
  | .malformed fault => fault.message
  | .badUrl fault => fault.message
  | .badToken => "failed to parse header value"
  | .connect fault => "connect failed: " ++ fault.message
  | .read text => "read failed: " ++ text
  | .receiverGone => "event channel closed"
  | .other text => text

/-- Why a message cannot be published.  What the client says of a rejected one is not kept. -/
inductive MqttCause
  | rejected (topic : String)
  | other (text : String)
deriving Repr, DecidableEq, Inhabited

def MqttCause.message : MqttCause → String
  | .rejected topic => s!"publish to {topic} failed"
  | .other text => text

/-- Why a configuration is refused. -/
inductive ConfigCause
  | emptyBinary
  | zeroGrabTimeout
  | pushScheme (url : String)
  | topicBase (base : String)
  | halfCredentials
  | other (text : String)
deriving Repr, DecidableEq, Inhabited

def ConfigCause.message : ConfigCause → String
  | .emptyBinary => "FFMPEG_BINARY must not be empty"
  | .zeroGrabTimeout => "FFMPEG_GRAB_TIMEOUT must be at least 1 second"
  | .pushScheme url => "SIMPLISAFE_PUSH_URL must be a ws:// or wss:// URL, got " ++ url
  | .topicBase base =>
    "MQTT_TOPIC_PREFIX must be non-empty without wildcards, got " ++
      String.ofList (Text.quoted base.toList)
  | .halfCredentials => "MQTT_USERNAME and MQTT_PASSWORD must be set together"
  | .other text => text

/-- What went wrong. -/
inductive Failure
  | spawn (text : String)
  | process (text : String)
  | timeout (seconds : UInt64)
  | emptyFrame
  | stream (cause : StreamCause)
  | snapshot (cause : SnapshotCause)
  | push (cause : PushCause)
  | mqtt (cause : MqttCause)
  | config (cause : ConfigCause)
  | io (e : IoError)
  | json (fault : Json.Fault)
deriving Repr, DecidableEq, Inhabited

def Failure.message : Failure → String
  | .spawn text => "Failed to spawn ffmpeg: " ++ text
  | .process text => "ffmpeg exited with an error: " ++ text
  | .timeout seconds => s!"ffmpeg timed out after {seconds}s"
  | .emptyFrame => "ffmpeg returned an empty frame"
  | .stream cause => "Camera stream error: " ++ cause.message
  | .snapshot cause => "Invalid snapshot: " ++ cause.message
  | .push cause => "Push channel error: " ++ cause.message
  | .mqtt cause => "MQTT error: " ++ cause.message
  | .config cause => "Invalid configuration: " ++ cause.message
  | .io e => e.message
  | .json fault => fault.message

end AlarmBridge
