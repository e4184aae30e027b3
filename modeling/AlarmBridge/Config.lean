import AlarmBridge.Camera.Ffmpeg
import AlarmBridge.Decimal.Whole
import AlarmBridge.Environment
import AlarmBridge.Json.Shape
import AlarmBridge.Json.Value

/-! The configuration of the bridge: defaults, what the environment changes in them, and what is
refused.  A number that cannot be read leaves the default. -/

set_option autoImplicit false

namespace AlarmBridge

open Json (Reader Shape Value)

/-- Where the account's data comes from. -/
structure AccountConfig where
  snapshotPath : OsText
  pushUrl : Option String
  accessToken : Option String
  refreshIntervalSecs : UInt64
deriving Repr, DecidableEq, Inhabited

/-- How ffmpeg is run. -/
structure FfmpegConfig where
  binary : String
  grabTimeoutSecs : UInt64
  streamContentType : String
deriving Repr, DecidableEq, Inhabited

/-- How long momentary sensors stay on. -/
structure SensorConfig where
  clearDelaySecs : UInt64
deriving Repr, DecidableEq, Inhabited

/-- Where states are published. -/
structure MqttConfig where
  brokerHost : String
  brokerPort : UInt16
  clientId : String
  username : Option String
  password : Option String
  topicBase : String
deriving Repr, DecidableEq, Inhabited

structure Config where
  account : AccountConfig
  ffmpeg : FfmpegConfig
  sensors : SensorConfig
  mqtt : MqttConfig
deriving Repr, DecidableEq, Inhabited

namespace Config

/-- The home directory: the one that is named, else that of the account, if it has one. -/
def home? (held? : String → Option OsText) (accountHome : Option OsText) : Option OsText :=
  ((held? "HOME").filter fun home => !home.isEmpty).or accountHome

/-- The directory of configuration files: the one that is named with an absolute path, else one in
the home directory. -/
def directory? (held? : String → Option OsText) (accountHome : Option OsText) : Option OsText :=
  ((held? "XDG_CONFIG_HOME").filter OsText.isAbsolute).or
    ((home? held? accountHome).map (·.join ".config"))

/-- The path of the snapshot file, which is in the working directory if there is no directory of
configuration files. -/
def defaultSnapshotPath (directory : Option OsText) : OsText :=
  match directory with
  | some dir => (dir.join "simplisafe-bridge").join "systems.json"
  | none => .ofString "systems.json"

def defaultFfmpeg : FfmpegConfig := ⟨"ffmpeg", 10, Ffmpeg.defaultContentType⟩

def default (directory : Option OsText) : Config where
  account := ⟨defaultSnapshotPath directory, none, none, 30⟩
  ffmpeg := defaultFfmpeg
  sensors := ⟨30⟩
  mqtt := ⟨"localhost", 1883, "simplisafe-bridge", none, none, "simplisafe"⟩

/-- The number below a bound that a variable holds. -/
def numberBelow? (bound : Nat) (value : Option String) : Option Nat :=
  value.bind fun s => (Decimal.whole? s.toList).filter (· < bound)

/-- The number of 64 bits that a variable holds, or else a default. -/
def uint64Or (value : Option String) (default : UInt64) : UInt64 :=
  ((numberBelow? UInt64.size value).map UInt64.ofNat).getD default

/-- The number of 16 bits that a variable holds, or else a default. -/
def uint16Or (value : Option String) (default : UInt16) : UInt16 :=
  ((numberBelow? UInt16.size value).map UInt16.ofNat).getD default

/-- A configuration with what variables say instead. -/
def override (c : Config) (lookup : String → Option String) : Config where
  account := {
    snapshotPath := ((lookup "SIMPLISAFE_SNAPSHOT").map .ofString).getD c.account.snapshotPath
    pushUrl := (lookup "SIMPLISAFE_PUSH_URL").or c.account.pushUrl
    accessToken := (lookup "SIMPLISAFE_ACCESS_TOKEN").or c.account.accessToken
    refreshIntervalSecs :=
      uint64Or (lookup "SIMPLISAFE_REFRESH_INTERVAL") c.account.refreshIntervalSecs }
  ffmpeg := {
    binary := (lookup "FFMPEG_BINARY").getD c.ffmpeg.binary
    grabTimeoutSecs := uint64Or (lookup "FFMPEG_GRAB_TIMEOUT") c.ffmpeg.grabTimeoutSecs
    streamContentType := c.ffmpeg.streamContentType }
  sensors := {
    clearDelaySecs := uint64Or (lookup "SENSOR_CLEAR_DELAY") c.sensors.clearDelaySecs }
  mqtt := {
    brokerHost := (lookup "MQTT_BROKER_HOST").getD c.mqtt.brokerHost
    brokerPort := uint16Or (lookup "MQTT_BROKER_PORT") c.mqtt.brokerPort
    clientId := (lookup "MQTT_CLIENT_ID").getD c.mqtt.clientId
    username := (lookup "MQTT_USERNAME").or c.mqtt.username
    password := (lookup "MQTT_PASSWORD").or c.mqtt.password
    topicBase := (lookup "MQTT_TOPIC_PREFIX").getD c.mqtt.topicBase }

/-- The configuration where variables hold what is looked up.  Only directories may be no
Unicode. -/
def ofLookup (held? : String → Option OsText) (accountHome : Option OsText) : Config :=
  (default (directory? held? accountHome)).override fun key => (held? key).bind OsText.text?

def ofEnvironment (env : Environment) (accountHome : Option OsText) : Config :=
  ofLookup env.held? accountHome

def startsWith (s start : String) : Bool := start.toList.isPrefixOf s.toList

def isWildcard (c : Char) : Bool := c = '+' || c = '#'

/-- The first thing for which a configuration is refused. -/
def fault? (c : Config) : Option ConfigCause :=
  if (Text.trim c.ffmpeg.binary.toList).isEmpty then some .emptyBinary
  else if c.ffmpeg.grabTimeoutSecs = 0 then some .zeroGrabTimeout
  else
    match c.account.pushUrl.filter fun url =>
      !(startsWith url "ws://" || startsWith url "wss://") with
    | some url => some (.pushScheme url)
    | none =>
      if c.mqtt.topicBase.isEmpty ∨ c.mqtt.topicBase.toList.any isWildcard then
        some (.topicBase c.mqtt.topicBase)
      else if c.mqtt.username.isSome ≠ c.mqtt.password.isSome then some .halfCredentials
      else none

/-- Refuses a configuration that the bridge cannot start with. -/
def validate (c : Config) : Except Failure Unit :=
  match c.fault? with
  | some cause => .error (.config cause)
  | none => .ok ()

/-- The seconds between two reads of the snapshot file. -/
def refreshInterval (c : Config) : UInt64 := max c.account.refreshIntervalSecs 1

/-- The milliseconds that momentary sensors stay on. -/
def clearDelay (c : Config) : Nat := c.sensors.clearDelaySecs.toNat * 1000

def accountShape : Shape AccountConfig where
  name := "VendorConfig"
  blank := ⟨.ofString "", none, none, 0⟩
  fields := [
    .of "snapshot_path" .required Reader.path fun s c => { c with snapshotPath := .ofString s },
    .of "push_url" .nullable (Reader.nullable Reader.text) fun s c => { c with pushUrl := s },
    .of "access_token" .nullable (Reader.nullable Reader.text)
      fun s c => { c with accessToken := s },
    .of "refresh_interval_secs" .required Reader.uint64
      fun n c => { c with refreshIntervalSecs := n }]

def ffmpegShape : Shape FfmpegConfig where
  name := "FfmpegConfig"
  blank := ⟨"", 0, ""⟩
  fields := [
    .of "binary" .required Reader.text fun s c => { c with binary := s },
    .of "grab_timeout_secs" .required Reader.uint64 fun n c => { c with grabTimeoutSecs := n },
    .of "stream_content_type" .required Reader.text fun s c => { c with streamContentType := s }]

def sensorShape : Shape SensorConfig where
  name := "SensorConfig"
  blank := ⟨0⟩
  fields :=
    [.of "clear_delay_secs" .required Reader.uint64 fun n c => { c with clearDelaySecs := n }]

def mqttShape : Shape MqttConfig where
  name := "MqttConfig"
  blank := ⟨"", 0, "", none, none, ""⟩
  fields := [
    .of "broker_host" .required Reader.text fun s c => { c with brokerHost := s },
    .of "broker_port" .required Reader.uint16 fun n c => { c with brokerPort := n },
    .of "client_id" .required Reader.text fun s c => { c with clientId := s },
    .of "username" .nullable (Reader.nullable Reader.text) fun s c => { c with username := s },
    .of "password" .nullable (Reader.nullable Reader.text) fun s c => { c with password := s },
    .of "topic_prefix" .required Reader.text fun s c => { c with topicBase := s }]

def shape : Shape Config where
  name := "Config"
  blank := ⟨accountShape.blank, ffmpegShape.blank, sensorShape.blank, mqttShape.blank⟩
  fields := [
    .of "vendor" .required accountShape.read fun v c => { c with account := v },
    .of "ffmpeg" .required ffmpegShape.read fun v c => { c with ffmpeg := v },
    .of "sensors" .required sensorShape.read fun v c => { c with sensors := v },
    .of "mqtt" .required mqttShape.read fun v c => { c with mqtt := v }]

def ofText? (s : List Char) : Except Json.Fault Config := Json.decode shape.read s

end Config

def FfmpegConfig.toJson (c : FfmpegConfig) : Value :=
  .object [("binary", .text c.binary), ("grab_timeout_secs", .number c.grabTimeoutSecs.toNat),
    ("stream_content_type", .text c.streamContentType)]

/-- The JSON of a configuration, if its path is Unicode. -/
def Config.toJson? (c : Config) : Option Value :=
  c.account.snapshotPath.text?.map fun path => .object [
    ("vendor", .object [("snapshot_path", .text path),
      ("push_url", Value.ofText? c.account.pushUrl),
      ("access_token", Value.ofText? c.account.accessToken),
      ("refresh_interval_secs", .number c.account.refreshIntervalSecs.toNat)]),
    ("ffmpeg", c.ffmpeg.toJson),
    ("sensors", .object [("clear_delay_secs", .number c.sensors.clearDelaySecs.toNat)]),
    ("mqtt", .object [("broker_host", .text c.mqtt.brokerHost),
      ("broker_port", .number c.mqtt.brokerPort.toNat), ("client_id", .text c.mqtt.clientId),
      ("username", Value.ofText? c.mqtt.username), ("password", Value.ofText? c.mqtt.password),
      ("topic_prefix", .text c.mqtt.topicBase)])]

end AlarmBridge
