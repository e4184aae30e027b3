import AlarmBridge.Failure
import AlarmBridge.Log
import AlarmBridge.Stream.Writer

/-! Copying the output of a stream process into a writer.  The output is a list of chunks, of which
a read takes one, or as much of it as a read can hold; between chunks the process may pause or a
read may never return.  The copy ends with the output, with a fault, or when its caller gives up. -/

set_option autoImplicit false

namespace AlarmBridge

/-- What a read of a stream process meets. -/
inductive Chunk
  | bytes (b : Bytes)
  | fault (e : IoError)
  /-- A pause that starts when it is met. -/
  | pause (ms : Nat)
  /-- A pause that has started and ends at a time. -/
  | pausedUntil (time : Nat)
  /-- A read that does not return by itself; the next read goes on after it. -/
  | hang
deriving Repr, DecidableEq, Inhabited

/-- The bytes that one read returns at most. -/
def readSize : Nat := 16384

/-- The reads that a chunk takes. -/
def piecesFrom : Nat → Bytes → List Bytes
  | 0, b => [b]
  | fuel + 1, b =>
    if b.length ≤ readSize then [b] else b.take readSize :: piecesFrom fuel (b.drop readSize)

/-- The reads that a chunk takes. -/
def pieces (b : Bytes) : List Bytes := piecesFrom (b.length / readSize) b

/-- How a copy ends. -/
inductive Ending
  | complete
  | readFault (e : IoError)
  | writeFault (e : IoError)
  | abandoned
deriving Repr, DecidableEq, Inhabited

/-- A copy that has ended: how, when, with what written and how many whole reads delivered, and what
the process has not yet put out. -/
structure Copy (σ : Type) where
  ending : Ending
  time : Nat
  writer : σ
  total : Nat
  rest : List Chunk
deriving Repr, DecidableEq, Inhabited

section

variable {σ : Type} [Sink σ]

/-- Writes one read after another; the fault of a write comes with the reads not yet made. -/
def writeReads (w : σ) (total : Nat) : List Bytes → σ × Nat × Option (IoError × List Bytes)
  | [] => (w, total, none)
  | b :: bs =>
    match Sink.writeAll w b with
    | (w, none) => writeReads w (total + b.length) bs
    | (w, some e) => (w, total, some (e, bs))

/-- The chunks left when the reads of one have been made in part. -/
def unread (reads : List Bytes) (rest : List Chunk) : List Chunk :=
  if reads.isEmpty then rest else .bytes reads.flatten :: rest

/-- When reading goes on after a pause, or else when the caller gives up.  At the deadline the
process is read once more, so a pause that ends then is no reason to give up. -/
def afterPause (deadline : Option Nat) (time due : Nat) : Except Nat Nat :=
  if due ≤ time then .ok time
  else
    match deadline with
    | none => .ok due
    | some limit => if due ≤ limit then .ok due else .error (max time limit)

/-- When reading goes on after a read that does not return: at the deadline, once.  Without a
deadline to come the caller gives up at once. -/
def afterHang (deadline : Option Nat) (time : Nat) : Except Nat Nat :=
  match deadline with
  | none => .error time
  | some limit => if limit ≤ time then .error time else .ok limit

/-- Copies chunks from a time on, until `deadline` if there is one. -/
def copyFrom (deadline : Option Nat) (time : Nat) (w : σ) (total : Nat) : List Chunk → Copy σ
  | [] => ⟨.complete, time, w, total, []⟩
  | .bytes b :: rest =>
    if b.isEmpty then ⟨.complete, time, w, total, rest⟩
    else
      match writeReads w total (pieces b) with
      | (w, total, none) => copyFrom deadline time w total rest
      | (w, total, some (e, reads)) => ⟨.writeFault e, time, w, total, unread reads rest⟩
  | .fault e :: rest => ⟨.readFault e, time, w, total, rest⟩
  | .pause ms :: rest =>
    match afterPause deadline time (time + ms) with
    | .ok time => copyFrom deadline time w total rest
    | .error given => ⟨.abandoned, given, w, total, .pausedUntil (time + ms) :: rest⟩
  | .pausedUntil due :: rest =>
    match afterPause deadline time due with
    | .ok time => copyFrom deadline time w total rest
    | .error given => ⟨.abandoned, given, w, total, .pausedUntil due :: rest⟩
  | .hang :: rest =>
    match afterHang deadline time with
    | .ok time => copyFrom deadline time w total rest
    | .error given => ⟨.abandoned, given, w, total, rest⟩

def Copy.log (c : Copy σ) (label : String) : List Log.Record :=
  match c.ending with
  | .complete => [⟨.debug, .streams, s!"[Camera] {label}: stream ended after {c.total} bytes"⟩]
  | .writeFault e =>
    if e.isDisconnect then
      [⟨.debug, .streams, s!"[Camera] {label}: client disconnected after {c.total} bytes"⟩]
    else []
  | _ => []

/-- The result of flushing the writer after a copy. -/
def Copy.flush (c : Copy σ) : Except StreamCause Nat :=
  match Sink.flushFault c.writer with
  | some e => if e.isDisconnect then .ok c.total else .error (.flush e)
  | none => .ok c.total

/-- What a copy comes to, unless its caller has given up: the bytes delivered or the cause of the
failure.  A client that goes away ends the copy as the end of the stream does. -/
def Copy.result? (c : Copy σ) : Option (Except StreamCause Nat) :=
  match c.ending with
  | .complete => some c.flush
  | .readFault e => some (.error (.read e))
  | .writeFault e => some (if e.isDisconnect then c.flush else .error (.write e))
  | .abandoned => none

end

end AlarmBridge
