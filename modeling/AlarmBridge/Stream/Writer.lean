import AlarmBridge.IoError
import AlarmBridge.Text.Utf8

/-! Where a stream is copied to.  A write to a sink takes some of the first bytes it is offered, or
fails; writing all of some bytes goes on until they are taken or a write fails.  A `Writer` is a
sink that takes bytes up to a limit, at most so many at a time; past the limit it fails or takes
none, and flushing may fail. -/

set_option autoImplicit false

namespace AlarmBridge

/-- What can be written to. -/
class Sink (σ : Type) where
  /-- One write: how many of the bytes it takes, from the first on, or how it fails. -/
  write : σ → Bytes → Except IoError Nat × σ
  /-- How flushing fails, if it does. -/
  flushFault : σ → Option IoError
  write_le : ∀ {s : σ} {b : Bytes} {n : Nat}, (write s b).1 = .ok n → n ≤ b.length

namespace Sink

variable {σ : Type} [Sink σ]

/-- Writes until all bytes are taken or a write fails; a write that takes none has failed. -/
def writeFrom : Nat → σ → Bytes → σ × Option IoError
  | 0, s, _ => (s, none)
  | fuel + 1, s, b =>
    if b.isEmpty then (s, none)
    else
      match write s b with
      | (.error e, s) => (s, some e)
      | (.ok 0, s) => (s, some (.plain .writeZero))
      | (.ok n, s) => writeFrom fuel s (b.drop n)

/-- Writes all of some bytes. -/
def writeAll (s : σ) (b : Bytes) : σ × Option IoError := writeFrom (b.length + 1) s b

end Sink

/-- A writer and what it has taken, the last bytes first. -/
structure Writer where
  /-- How many bytes it still takes, if that is limited. -/
  room : Option Nat
  /-- How a write fails past the limit; none stands for taking no bytes. -/
  refusal : Option IoError
  /-- How many bytes one write takes at most, if that is limited. -/
  largest : Option Nat
  /-- How flushing fails, if it does. -/
  flushFault : Option IoError
  taken : List Bytes
deriving Repr, DecidableEq, Inhabited

namespace Writer

def unlimited : Writer := ⟨none, none, none, none, []⟩

def written (w : Writer) : Bytes := w.taken.reverse.flatten

/-- How many bytes of `b` one write takes. -/
def offer (w : Writer) (b : Bytes) : Except IoError Nat :=
  let n := (w.largest.map (min b.length)).getD b.length
  match w.room with
  | none => .ok n
  | some 0 =>
    match w.refusal with
    | some e => .error e
    | none => .ok 0
  | some room => .ok (min n room)

theorem offer_le {w : Writer} {b : Bytes} {n : Nat} (h : w.offer b = .ok n) : n ≤ b.length := by
  have hmost : (w.largest.map (min b.length)).getD b.length ≤ b.length := by
    cases w.largest with
    | none => exact Nat.le_refl _
    | some largest => exact Nat.min_le_left _ _
  unfold offer at h
  split at h
  · exact Except.ok.inj h ▸ hmost
  · split at h
    · cases h
    · exact Except.ok.inj h ▸ Nat.zero_le _
  · exact Except.ok.inj h ▸ Nat.le_trans (Nat.min_le_left _ _) hmost

/-- A writer that has taken some bytes. -/
def take (w : Writer) (b : Bytes) : Writer :=
  { w with room := w.room.map (· - b.length), taken := b :: w.taken }

def write (w : Writer) (b : Bytes) : Except IoError Nat × Writer :=
  match w.offer b with
  | .ok n => (.ok n, w.take (b.take n))
  | .error e => (.error e, w)

instance : Sink Writer where
  write := write
  flushFault := flushFault
  write_le {w b n} h := by
    unfold write at h
    split at h
    · next hoffer => exact Except.ok.inj h ▸ offer_le hoffer
    · cases h

end Writer

end AlarmBridge
