import AlarmBridge.Agenda
import AlarmBridge.Bridge.Basic
import AlarmBridge.Bridge.Camera
import AlarmBridge.Bridge.Solo
import AlarmBridge.Bridge.Step
import AlarmBridge.Camera.Ffmpeg
import AlarmBridge.Camera.Grabber
import AlarmBridge.Camera.Input
import AlarmBridge.Config
import AlarmBridge.Daemon.CommandLine
import AlarmBridge.Daemon.Start
import AlarmBridge.Decimal.Binary64
import AlarmBridge.Decimal.Shortest
import AlarmBridge.Decimal.Whole
import AlarmBridge.Device.ArmState
import AlarmBridge.Device.DeviceType
import AlarmBridge.Device.Record
import AlarmBridge.Entity.Basic
import AlarmBridge.Entity.Info
import AlarmBridge.Entity.StateCell
import AlarmBridge.Environment
import AlarmBridge.Failure
import AlarmBridge.Files
import AlarmBridge.IoError
import AlarmBridge.Json.Fault
import AlarmBridge.Json.Number
import AlarmBridge.Json.Reader
import AlarmBridge.Json.Shape
import AlarmBridge.Json.Skip
import AlarmBridge.Json.Value
import AlarmBridge.Log
import AlarmBridge.Log.Filter
import AlarmBridge.Log.Pattern
import AlarmBridge.Main
import AlarmBridge.Mqtt
import AlarmBridge.Push.Listener
import AlarmBridge.Push.Url
import AlarmBridge.PushEvent
import AlarmBridge.Roster
import AlarmBridge.Sensor.Momentary
import AlarmBridge.Sensor.Polled
import AlarmBridge.Session
import AlarmBridge.Snapshot
import AlarmBridge.SnapshotSource
import AlarmBridge.Stream.Guard
import AlarmBridge.Stream.Proxy
import AlarmBridge.Stream.Writer
import AlarmBridge.Text.Blank
import AlarmBridge.Text.Printable
import AlarmBridge.Text.Quoted
import AlarmBridge.Text.Utf8
import AlarmBridge.Time.Date
import AlarmBridge.Time.Rfc3339
import AlarmBridge.Time.Timestamp
import AlarmBridge.Proofs.Agenda
import AlarmBridge.Proofs.Bridge.Alone
import AlarmBridge.Proofs.Bridge.Bare
import AlarmBridge.Proofs.Bridge.Follows
import AlarmBridge.Proofs.Bridge.Frames
import AlarmBridge.Proofs.Bridge.Heard
import AlarmBridge.Proofs.Bridge.Media
import AlarmBridge.Proofs.Bridge.Muted
import AlarmBridge.Proofs.Bridge.Outbox
import AlarmBridge.Proofs.Bridge.Registered
import AlarmBridge.Proofs.Bridge.SoloHeard
import AlarmBridge.Proofs.Bridge.Timely
import AlarmBridge.Proofs.ChangeLog
import AlarmBridge.Proofs.Course
import AlarmBridge.Proofs.Exposure
import AlarmBridge.Proofs.Freshness
import AlarmBridge.Proofs.Identity
import AlarmBridge.Proofs.Mirror
import AlarmBridge.Proofs.Momentary
import AlarmBridge.Proofs.Publishing
import AlarmBridge.Proofs.Rebuild
import AlarmBridge.Proofs.Records
import AlarmBridge.Proofs.Roster
import AlarmBridge.Proofs.Routing
import AlarmBridge.Proofs.Separation
import AlarmBridge.Proofs.Shutter
import AlarmBridge.Proofs.Stills
import AlarmBridge.Proofs.Stream.Copying
import AlarmBridge.Proofs.Stream.Guard
import AlarmBridge.Proofs.Stream.Sink
import AlarmBridge.Proofs.Streams
import AlarmBridge.Proofs.Stuck
import AlarmBridge.Proofs.Handles
import AlarmBridge.Proofs.Token
import AlarmBridge.Proofs.Topics
import AlarmBridge.Proofs.Reordering
import AlarmBridge.Proofs.Json.Grammar
import AlarmBridge.Proofs.Json.Reading
import AlarmBridge.Proofs.Json.Decoding
import AlarmBridge.Proofs.RoundTrip
import AlarmBridge.Proofs.Stream.Counting
import AlarmBridge.Proofs.Refresh
import AlarmBridge.Proofs.Utf8
import AlarmBridge.Proofs.Registration
import AlarmBridge.Proofs.Json.Sequence
import AlarmBridge.Proofs.Json.Tree
import AlarmBridge.Proofs.Json.Skipping
import AlarmBridge.Proofs.Json.Settling
import AlarmBridge.Proofs.Json.Evolving
import AlarmBridge.Proofs.Compatibility
import AlarmBridge.Proofs.Time.Calendar
import AlarmBridge.Proofs.Yields
import AlarmBridge.Proofs.Time.Rfc3339
import AlarmBridge.Proofs.Json.Keeping
import AlarmBridge.Proofs.Events
import AlarmBridge.Proofs.Listening
import AlarmBridge.Proofs.Trimming
import AlarmBridge.Proofs.Dotenv
import AlarmBridge.Proofs.Precedence
import AlarmBridge.Proofs.Loading
import AlarmBridge.Proofs.Settings
import AlarmBridge.Proofs.Json.Replacing
import AlarmBridge.Proofs.Retyping
import AlarmBridge.Proofs.Grabbing
import AlarmBridge.Proofs.Lossy
import AlarmBridge.Proofs.Arguments
import AlarmBridge.Proofs.Sources
