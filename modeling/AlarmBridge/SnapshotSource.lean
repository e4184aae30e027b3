import AlarmBridge.Failure
import AlarmBridge.Files
import AlarmBridge.Log
import AlarmBridge.Snapshot

/-! Where snapshots are read from: a file, and a token that replaces the one in the file. -/

set_option autoImplicit false

namespace AlarmBridge

/-- A file of snapshots and the token that replaces its own, if one is configured. -/
structure SnapshotSource where
  path : OsText
  token : Option String
deriving Repr, DecidableEq, Inhabited

namespace SnapshotSource

/-- The snapshot in what reading the file came to. -/
def load (source : SnapshotSource) (content : Except IoError Bytes) : Except Failure Snapshot :=
  match content.bind textOf with
  | .error e => .error (.snapshot (.unreadable source.path e))
  | .ok text =>
    match Snapshot.ofText? text with
    | .error fault => .error (.snapshot (.malformed fault))
    | .ok s => .ok { s with accessToken := source.token.getD s.accessToken }

/-- The line logged when a snapshot has been loaded. -/
def loadedLine (source : SnapshotSource) (s : Snapshot) : Log.Record :=
  ⟨.debug, .snapshots,
    s!"[Vendor] Loaded snapshot with {s.systems.length} system(s) from {source.path.shown}"⟩

end SnapshotSource

end AlarmBridge
