import AlarmBridge.Stream.Proxy

/-! Ownership of a running stream process.  A guard is released once, by closing the process or,
where its caller has gone away, by aborting it. -/

set_option autoImplicit false

namespace AlarmBridge

/-- A stream process: what it will put out, and how closing it fails, if it does. -/
structure StreamProcess where
  chunks : List Chunk
  closeFault : Option Failure
deriving Repr, DecidableEq, Inhabited

/-- How a process is released. -/
inductive Release
  | close
  | abort
deriving Repr, DecidableEq, Inhabited

/-- The owner of a stream process, none once it has been released, with the releases so far. -/
structure Guard where
  process : Option StreamProcess
  label : String
  releases : List Release
deriving Repr, DecidableEq, Inhabited

namespace Guard

def of (process : StreamProcess) (label : String) : Guard := ⟨some process, label, []⟩

/-- Copies the process into a writer from a time on, until the deadline if there is one. -/
def proxy {σ : Type} [Sink σ] (g : Guard) (deadline : Option Nat) (time : Nat) (w : σ) :
    Guard × Option (Copy σ) :=
  match g.process with
  | none => (g, none)
  | some process =>
    let copy := copyFrom deadline time w 0 process.chunks
    ({ g with process := some { process with chunks := copy.rest } }, some copy)

/-- Closes the process, with the failure of that if there is one. -/
def release (g : Guard) : Guard × Option Failure :=
  match g.process with
  | none => (g, none)
  | some process =>
    ({ g with process := none, releases := g.releases ++ [.close] }, process.closeFault)

/-- Aborts the process. -/
def drop (g : Guard) : Guard × List Log.Record :=
  match g.process with
  | none => (g, [])
  | some _ =>
    ({ g with process := none, releases := g.releases ++ [.abort] },
      [⟨.warn, .streams, s!"[Camera] {g.label}: stream dropped, aborting ffmpeg"⟩])

end Guard

/-- What a stream request comes to: when it ends, what was written, the result unless the caller
gave up, how the process was released, and what was logged. -/
structure StreamRun where
  time : Nat
  writer : Writer
  result? : Option (Except StreamCause Nat)
  releases : List Release
  log : List Log.Record
deriving Inhabited

/-- Runs a stream request on a process: the copy, then the release. -/
def StreamProcess.serve (process : StreamProcess) (label : String) (deadline : Option Nat)
    (time : Nat) (w : Writer) : StreamRun :=
  let guarded := Guard.of process label
  match guarded.proxy deadline time w with
  | (guarded, none) => ⟨time, w, some (.error .released), guarded.releases, []⟩
  | (guarded, some copy) =>
    match copy.result? with
    | none =>
      let (guarded, log) := guarded.drop
      ⟨copy.time, copy.writer, none, guarded.releases, copy.log label ++ log⟩
    | some result =>
      let (guarded, fault) := guarded.release
      let log := fault.toList.map fun f =>
        ⟨.warn, .cameras, s!"[Camera] {label}: failed to stop stream process: {f.message}"⟩
      ⟨copy.time, copy.writer, some result, guarded.releases, copy.log label ++ log⟩

end AlarmBridge
