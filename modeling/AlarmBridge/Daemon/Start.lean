import AlarmBridge.Bridge.Basic
import AlarmBridge.Config
import AlarmBridge.Daemon.CommandLine
import AlarmBridge.Log.Filter
import AlarmBridge.SnapshotSource

/-! Starting and refreshing the daemon: the `.env` file, the command line, the configuration, the
first snapshot, and the bridge that runs from then on. -/

set_option autoImplicit false

namespace AlarmBridge.Daemon

structure Running where
  config : Config
  source : SnapshotSource
  bridge : Bridge
  filter : Log.Filter

/-- What starting comes to: a running daemon, or the code with which the program ends. -/
inductive Started
  | running (daemon : Running)
  | ended (code : Nat)

/-- One line of the daemon itself. -/
def line (level : Log.Level) (text : String) : Log.Record := ⟨level, .daemon, text⟩

def configLines (c : Config) : List Log.Record :=
  [line .info "Configuration loaded:",
    line .info s!"  Snapshot: {c.account.snapshotPath.shown}",
    line .info ("  Push URL: " ++ c.account.pushUrl.getD "(disabled)"),
    line .info s!"  MQTT: {c.mqtt.brokerHost}:{c.mqtt.brokerPort} ({c.mqtt.topicBase})",
    line .info s!"  Clear delay: {c.sensors.clearDelaySecs}s"]

def systemLine (s : System) : Log.Record :=
  line .info s!"  System {s.systemId}: version {s.version}, {s.state.name}"

def runningLines (c : Config) (b : Bridge) : List Log.Record :=
  (if c.account.pushUrl.isSome then []
    else [line .warn "No push URL configured, motion and doorbell sensors stay off"]) ++
  [line .info "SimpliSafe bridge is running",
    line .info s!"  - {b.entities.length} entities registered",
    line .info "  - Press Ctrl+C to exit"]

/-- What the program is told to do: a configuration, the name of the account, and which log records
to show. -/
structure Plan where
  config : Config
  entryId : String
  filter : Log.Filter

/-- The entry id where the command line gives none. -/
def defaultEntryId : String := "default"

/-- The log filter where nothing else is set. -/
def defaultLogLevel : String := "info"

/-- What the environment, the `.env` file and the command line tell the program to do, or the code
with which it ends. -/
def plan (env : Environment) (accountHome : Option OsText) (dotenv : Option (List Char))
    (args : List String) : Except Nat Plan :=
  match Dotenv.loadFile env dotenv with
  | .crashed _ => .error 101
  | .complete env =>
    match parse env args with
    | .misuse => .error 2
    | .information => .error 0
    | .arguments a =>
      let config := Config.ofEnvironment env accountHome
      let path := a.snapshot.getD config.account.snapshotPath
      .ok {
        config := { config with account := { config.account with snapshotPath := path } }
        entryId := a.entryId.getD defaultEntryId
        filter := .ofText ((env.var? "RUST_LOG").getD (a.logLevel.getD defaultLogLevel)) }

def sourceOf (c : Config) : SnapshotSource := ⟨c.account.snapshotPath, c.account.accessToken⟩

/-- Starts as planned with what reading the snapshot file came to. -/
def Plan.begin (p : Plan) (content : Except IoError Bytes) : Started × List Log.Record :=
  let c := p.config
  let log := line .info "Starting SimpliSafe bridge" :: configLines c
  match c.validate with
  | .error f => (.ended 1, log ++ [line .error f.message])
  | .ok () =>
    let source := sourceOf c
    match source.load content with
    | .error f =>
      (.ended 1, log ++ [line .error
        ("Failed to load initial snapshot from " ++ source.path.shown ++ ": " ++ f.message)])
    | .ok snapshot =>
      let session := Session.ofSnapshot p.entryId snapshot
      let bridge := Bridge.setup session c.clearDelay ⟨[], [], []⟩
      (.running ⟨c, source, bridge.publishAll, p.filter⟩,
        log ++ [source.loadedLine snapshot] ++ session.systems.values.map systemLine ++
          bridge.log ++ runningLines c bridge)

/-- Starts as planned, with the log lines that are shown. -/
def Plan.start (p : Plan) (content : Except IoError Bytes) : Started × List Log.Record :=
  let started := p.begin content
  (started.1, started.2.filter p.filter.shows)

/-- Starts the program in a working directory. -/
def start (files : Files) (env : Environment) (accountHome : Option OsText) (args : List String) :
    Started × List Log.Record :=
  let dotenv := (files.read (.ofString ".env")).toOption.bind Text.decode
  match plan env accountHome dotenv args with
  | .error code => (.ended code, [])
  | .ok p => p.start (files.read (sourceOf p.config).path)

/-- What is logged when the daemon is interrupted. -/
def Running.endLog (d : Running) : List Log.Record :=
  let log := [line .info "Received shutdown signal", line .info "SimpliSafe bridge stopped"]
  log.filter d.filter.shows

def Running.refresh (d : Running) (content : Except IoError Bytes) : Running × List Log.Record :=
  match d.source.load content with
  | .ok snapshot =>
    let bridge := (d.bridge.apply snapshot).refresh
    let log := d.source.loadedLine snapshot :: bridge.log.drop d.bridge.log.length
    ({ d with bridge := bridge }, log.filter d.filter.shows)
  | .error f =>
    let log := [line .warn ("Refresh failed, keeping previous state: " ++ f.message)]
    (d, log.filter d.filter.shows)

end AlarmBridge.Daemon
