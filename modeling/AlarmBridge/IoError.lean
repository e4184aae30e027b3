/-! Errors of reading, writing and connecting: a kind with its standard text or a text of its own,
or a code of the operating system. -/

set_option autoImplicit false

namespace AlarmBridge

/-- Kinds of errors of reading and writing. -/
inductive IoKind
  | brokenPipe
  | connectionReset
  | connectionAborted
  | connectionRefused
  | notConnected
  | writeZero
  | unexpectedEof
  | timedOut
  | invalidData
  | permissionDenied
  | notFound
  | notADirectory
  | isADirectory
  | invalidFilename
  | networkUnreachable
  | other
deriving Repr, DecidableEq, Inhabited

def IoKind.text : IoKind → String
  | .brokenPipe => "broken pipe"
  | .connectionReset => "connection reset"
  | .connectionAborted => "connection aborted"
  | .connectionRefused => "connection refused"
  | .notConnected => "not connected"
  | .writeZero => "write zero"
  | .unexpectedEof => "unexpected end of file"
  | .timedOut => "timed out"
  | .invalidData => "invalid data"
  | .permissionDenied => "permission denied"
  | .notFound => "entity not found"
  | .notADirectory => "not a directory"
  | .isADirectory => "is a directory"
  | .invalidFilename => "invalid filename"
  | .networkUnreachable => "network unreachable"
  | .other => "other error"

/-- What the operating system refuses. -/
inductive OsCode
  | noEntry
  | permissionDenied
  | notADirectory
  | isADirectory
  | brokenPipe
  | nameTooLong
  | networkUnreachable
  | connectionAborted
  | connectionReset
deriving Repr, DecidableEq, Inhabited

def OsCode.number : OsCode → Nat
  | .noEntry => 2
  | .permissionDenied => 13
  | .notADirectory => 20
  | .isADirectory => 21
  | .brokenPipe => 32
  | .nameTooLong => 36
  | .networkUnreachable => 101
  | .connectionAborted => 103
  | .connectionReset => 104

def OsCode.text : OsCode → String
  | .noEntry => "No such file or directory"
  | .permissionDenied => "Permission denied"
  | .notADirectory => "Not a directory"
  | .isADirectory => "Is a directory"
  | .brokenPipe => "Broken pipe"
  | .nameTooLong => "File name too long"
  | .networkUnreachable => "Network is unreachable"
  | .connectionAborted => "Software caused connection abort"
  | .connectionReset => "Connection reset by peer"

def OsCode.kind : OsCode → IoKind
  | .noEntry => .notFound
  | .permissionDenied => .permissionDenied
  | .notADirectory => .notADirectory
  | .isADirectory => .isADirectory
  | .brokenPipe => .brokenPipe
  | .nameTooLong => .invalidFilename
  | .networkUnreachable => .networkUnreachable
  | .connectionAborted => .connectionAborted
  | .connectionReset => .connectionReset

/-- An error of reading, writing or connecting. -/
inductive IoError
  | plain (kind : IoKind)
  | described (kind : IoKind) (text : String)
  | os (code : OsCode)
deriving Repr, DecidableEq, Inhabited

namespace IoError

def message : IoError → String
  | plain kind => kind.text
  | described _ text => text
  | os code => s!"{code.text} (os error {code.number})"

def kind : IoError → IoKind
  | plain kind | described kind _ => kind
  | os code => code.kind

/-- Whether an error means that the other side has gone away. -/
def isDisconnect (e : IoError) : Bool :=
  e.kind = .brokenPipe || e.kind = .connectionReset || e.kind = .connectionAborted ||
    e.kind = .writeZero

end IoError

end AlarmBridge
