import AlarmBridge.Stream.Proxy
import Mathlib.Data.List.Basic

/-! Writing to sinks.  Writing all of some bytes is a sequence of writes that take some each, until
all are taken or one is refused; a sink that refuses nothing takes everything. -/

set_option autoImplicit false

namespace AlarmBridge

namespace Sink

variable {σ : Type} [Sink σ]

/-- By writes that each take some bytes, a sink takes just these and comes to another state. -/
inductive Takes : σ → Bytes → σ → Prop
  | nil (s : σ) : Takes s [] s
  | write {s s' s'' : σ} {b bytes : Bytes} {n : Nat} :
    Sink.write s b = (.ok n, s') → 0 < n → Takes s' bytes s'' → Takes s (b.take n ++ bytes) s''

/-- A write of some bytes fails or takes none of them, which is a failure too. -/
inductive Refuses : σ → IoError → σ → Prop
  | fault {s s' : σ} {b : Bytes} {e : IoError} :
    b ≠ [] → Sink.write s b = (.error e, s') → Refuses s e s'
  | nothing {s s' : σ} {b : Bytes} :
    b ≠ [] → Sink.write s b = (.ok 0, s') → Refuses s (.plain .writeZero) s'

/-- What writing some bytes comes to: all are taken, or those before a write that fails. -/
def Wrote (s : σ) (b : Bytes) (s' : σ) : Option IoError → Prop
  | none => Takes s b s'
  | some e => ∃ part t, Takes s part t ∧ part <+: b ∧ part.length < b.length ∧ Refuses t e s'

variable {s s' s'' : σ} {b c : Bytes} {e? : Option IoError}

theorem Takes.trans (h : Takes s b s') (h' : Takes s' c s'') : Takes s (b ++ c) s'' := by
  induction h with
  | nil => exact h'
  | write hwrite hn _ ih =>
    rw [List.append_assoc]
    exact .write hwrite hn (ih h')

theorem Takes.wrote (h : Takes s b s') (h' : Wrote s' c s'' e?) : Wrote s (b ++ c) s'' e? := by
  cases e? with
  | none => exact h.trans h'
  | some e =>
    obtain ⟨part, t, htakes, hpart, hlt, hrefuses⟩ := h'
    refine ⟨b ++ part, t, h.trans htakes, (List.prefix_append_right_inj b).mpr hpart, ?_, hrefuses⟩
    rw [List.length_append, List.length_append]
    omega

theorem wrote_writeFrom {fuel : Nat} (hfuel : b.length < fuel) :
    Wrote s b (writeFrom fuel s b).1 (writeFrom fuel s b).2 := by
  induction fuel generalizing s b with
  | zero => omega
  | succ fuel ih =>
    by_cases hb : b = []
    · subst hb
      exact .nil s
    · have hpos : 0 < b.length := List.length_pos_iff.mpr hb
      rw [writeFrom, if_neg (by simpa using hb)]
      rcases hwrite : Sink.write s b with ⟨_ | n, s'⟩
      · exact ⟨[], s, .nil s, List.nil_prefix, hpos, .fault hb hwrite⟩
      · cases n with
        | zero => exact ⟨[], s, .nil s, List.nil_prefix, hpos, .nothing hb hwrite⟩
        | succ n =>
          -- what is left to write is shorter, so the fuel lasts
          have hfirst : Takes s (b.take (n + 1)) s' := by
            simpa using Takes.write hwrite (Nat.succ_pos n) (.nil s')
          have hrest : (b.drop (n + 1)).length < fuel := by
            rw [List.length_drop]
            omega
          have hwrote := hfirst.wrote (ih (s := s') hrest)
          rwa [List.take_append_drop] at hwrote

/-- Writing all of some bytes comes to all being taken, or to a write that fails. -/
theorem wrote_writeAll (s : σ) (b : Bytes) : Wrote s b (writeAll s b).1 (writeAll s b).2 :=
  wrote_writeFrom (Nat.lt_succ_self _)

/-- `held` tells what a sink has taken in all. -/
structure Holds (held : σ → Bytes) : Prop where
  taken : ∀ {s s' : σ} {b : Bytes} {n : Nat}, Sink.write s b = (.ok n, s') →
    held s' = held s ++ b.take n
  kept : ∀ {s s' : σ} {b : Bytes} {e : IoError}, Sink.write s b = (.error e, s') → held s' = held s

theorem Takes.held {held : σ → Bytes} (hheld : Holds held) (h : Takes s b s') :
    held s' = held s ++ b := by
  induction h with
  | nil => exact (List.append_nil _).symm
  | write hwrite _ _ ih => rw [ih, hheld.taken hwrite, List.append_assoc]

theorem Refuses.held {held : σ → Bytes} (hheld : Holds held) {e : IoError} (h : Refuses s e s') :
    held s' = held s := by
  cases h with
  | fault _ hwrite => exact hheld.kept hwrite
  | nothing _ hwrite => simpa using hheld.taken hwrite

/-- A sink that takes everything: no write fails, however much it has taken. -/
def Unfailing (s : σ) : Prop := ∀ taken s', Takes s taken s' → ∀ e s'', ¬Refuses s' e s''

/-- What flushing a sink comes to after some bytes have been delivered: their number, unless it
fails other than by the other side having gone away. -/
def flushed (s : σ) (count : Nat) : Except StreamCause Nat :=
  match flushFault s with
  | some e => if e.isDisconnect then .ok count else .error (.flush e)
  | none => .ok count

end Sink

namespace Writer

variable {w w' : Writer} {b : Bytes}

theorem eq_take_of_write {n : Nat} (h : Sink.write w b = (.ok n, w')) : w' = w.take (b.take n) := by
  have hwrite : w.write b = (.ok n, w') := h
  unfold write at hwrite
  split at hwrite
  · obtain ⟨hn, rfl⟩ := Prod.mk.inj hwrite
    rw [Except.ok.inj hn]
  · cases hwrite

theorem eq_of_write_error {e : IoError} (h : Sink.write w b = (.error e, w')) : w' = w := by
  have hwrite : w.write b = (.error e, w') := h
  unfold write at hwrite
  split at hwrite
  · cases hwrite
  · exact (Prod.mk.inj hwrite).2.symm

theorem holds_written : Sink.Holds written where
  taken {w w' b n} hwrite := by
    rw [eq_take_of_write hwrite]
    simp [written, take]
  kept hwrite := by rw [eq_of_write_error hwrite]

/-- A writer that has no limit and takes some bytes at a time. -/
structure Endless (w : Writer) : Prop where
  room : w.room = none
  largest : w.largest ≠ some 0

namespace Endless

theorem write_eq (h : w.Endless) (hb : b ≠ []) :
    ∃ n, 0 < n ∧ Sink.write w b = (.ok n, w.take (b.take n)) := by
  have hpos : 0 < b.length := List.length_pos_iff.mpr hb
  refine ⟨(w.largest.map (min b.length)).getD b.length, ?_, ?_⟩
  · cases hlargest : w.largest with
    | none => exact hpos
    | some most =>
      have hmost : most ≠ 0 := fun hzero => h.largest (hzero ▸ hlargest)
      exact Nat.lt_min.mpr ⟨hpos, Nat.pos_of_ne_zero hmost⟩
  · show w.write b = _
    rw [write, offer, h.room]

theorem takes (h : w.Endless) (htakes : Sink.Takes w b w') : w'.Endless := by
  induction htakes with
  | nil => exact h
  | write hwrite _ _ ih =>
    refine ih ?_
    rw [eq_take_of_write hwrite]
    exact ⟨by rw [take, h.room]; rfl, h.largest⟩

theorem unfailing (h : w.Endless) : Sink.Unfailing w := by
  intro taken w' htakes e w'' hrefuses
  cases hrefuses with
  | fault hb hwrite =>
    obtain ⟨n, -, hok⟩ := (h.takes htakes).write_eq hb
    rw [hwrite] at hok
    cases hok
  | nothing hb hwrite =>
    obtain ⟨n, hn, hok⟩ := (h.takes htakes).write_eq hb
    rw [hwrite] at hok
    have hzero : 0 = n := Except.ok.inj (Prod.mk.inj hok).1
    omega

end Endless

end Writer

end AlarmBridge
