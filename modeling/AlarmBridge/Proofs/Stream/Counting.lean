import AlarmBridge.Proofs.Stream.Copying
import AlarmBridge.Proofs.Shutter
import Mathlib.Data.List.Infix

/-! The number of bytes that a stream request reports as delivered.  It counts the reads that were
taken whole, so it is the number of bytes that the sink has accepted unless a read was cut: a sink
that takes the beginning of a read and then goes away has accepted bytes that nobody counts. -/

set_option autoImplicit false

namespace AlarmBridge

/-- Of some reads in turn, these have been taken whole, and if a write failed this part of the
next. -/
inductive TakenUpTo (reads : List Bytes) : List Bytes → Bytes → Prop
  | whole : TakenUpTo reads reads []
  | within {done : List Bytes} {read part : Bytes} (hdone : done ++ [read] <+: reads)
      (hpart : part <+: read) (hcut : part.length < read.length) : TakenUpTo reads done part

namespace TakenUpTo

variable {reads done : List Bytes} {part : Bytes}

theorem prefix_reads (h : TakenUpTo reads done part) : done <+: reads := by
  cases h with
  | whole => exact List.prefix_rfl
  | within hdone => exact (List.prefix_append _ _).trans hdone

/-- What is taken of a read that was not taken whole is less than a read. -/
theorem length_part_lt (hreads : ∀ read ∈ reads, read.length ≤ readSize)
    (h : TakenUpTo reads done part) : part.length < readSize := by
  cases h with
  | whole => exact Nat.lt_of_sub_pos (by decide)
  | within hdone _ hcut =>
    have hmem := hdone.subset (List.mem_append_right _ List.mem_cons_self)
    exact Nat.lt_of_lt_of_le hcut (hreads _ hmem)

/-- Whole reads leave no part of another. -/
theorem eq_nil_of_flatten_eq (h : TakenUpTo reads done part) {others : List Bytes}
    (hothers : others <+: reads) (heq : done.flatten ++ part = others.flatten) : part = [] := by
  cases h with
  | whole => rfl
  | @within _ read _ hdone hpart hcut =>
    have hlength := congrArg List.length heq
    rw [List.length_append] at hlength
    -- the other reads stop before the one that was cut, or have all of it
    have hsides : others <+: done ∨ done ++ [read] <+: others := by
      rcases List.prefix_or_prefix_of_prefix hothers hdone with hshort | hlong
      · rcases List.prefix_concat_iff.mp hshort with rfl | hshort
        · exact .inr List.prefix_rfl
        · exact .inl hshort
      · exact .inr hlong
    rcases hsides with hshort | hlong
    · have hle := (List.IsPrefix.flatten hshort).length_le
      exact List.eq_nil_of_length_eq_zero (by omega)
    · have hle := (List.IsPrefix.flatten hlong).length_le
      rw [List.flatten_append, List.flatten_singleton, List.length_append] at hle
      omega

end TakenUpTo

/-- With some bytes held before and others after, `count` is the number of accepted bytes that came
in reads taken whole. -/
def CountsWhole (reads : List Bytes) (before after : Bytes) (count : Nat) : Prop :=
  ∃ done part, TakenUpTo reads done part ∧ after = before ++ (done.flatten ++ part) ∧
    count = done.flatten.length

/-- The count is exact exactly if what was accepted is whole reads. -/
theorem CountsWhole.exact_iff {reads : List Bytes} {before after : Bytes} {count : Nat}
    (h : CountsWhole reads before after count) :
    after.length = before.length + count ↔
      ∃ done, done <+: reads ∧ after = before ++ done.flatten := by
  obtain ⟨done, part, htaken, rfl, rfl⟩ := h
  simp only [List.length_append]
  constructor
  · intro hexact
    obtain rfl : part = [] := List.eq_nil_of_length_eq_zero (by omega)
    exact ⟨done, htaken.prefix_reads, by rw [List.append_nil]⟩
  · rintro ⟨others, hothers, heq⟩
    obtain rfl := htaken.eq_nil_of_flatten_eq hothers (List.append_cancel_left heq)
    rfl

theorem CountsWhole.bounds {reads : List Bytes} {before after : Bytes} {count : Nat}
    (hreads : ∀ read ∈ reads, read.length ≤ readSize) (h : CountsWhole reads before after count) :
    before.length + count ≤ after.length ∧ after.length < before.length + count + readSize := by
  obtain ⟨done, part, htaken, rfl, rfl⟩ := h
  have hpart := htaken.length_part_lt hreads
  simp only [List.length_append]
  omega

theorem Sink.flushed_eq_ok {σ : Type} [Sink σ] {s : σ} {count n : Nat}
    (h : Sink.flushed s count = .ok n) : count = n := by
  unfold flushed at h
  split at h
  · split at h
    · exact Except.ok.inj h
    · cases h
  · exact Except.ok.inj h

section

variable {σ : Type} [Sink σ] {w s : σ} {chunks : List Chunk} {taken : Bytes} {n : Nat}

/-- A proxy that comes to a number has counted the reads that were taken whole. -/
theorem Proxied.countsWhole (h : Proxied w chunks taken s (.ok n)) {held : σ → Bytes}
    (hheld : Sink.Holds held) : CountsWhole (readsOf chunks) (held w) (held s) n := by
  obtain ⟨count, e?, hdelivers, hcount⟩ : ∃ count e?, Delivers w (readsOf chunks) taken count s e? ∧
      Sink.flushed s count = .ok n := by
    generalize hresult : (Except.ok n : Except StreamCause Nat) = result at h
    cases h with
    | ended _ hdelivers => exact ⟨_, _, hdelivers, rfl⟩
    | readFault => cases hresult
    | disconnected hdelivers _ => exact ⟨_, _, hdelivers, rfl⟩
    | writeFault => cases hresult
  obtain rfl := Sink.flushed_eq_ok hcount
  rw [hdelivers.held hheld]
  cases hdelivers with
  | whole => exact ⟨_, [], .whole, by rw [List.append_nil], rfl⟩
  | cut hdone _ hpart hcut _ => exact ⟨_, _, .within hdone hpart hcut, rfl, rfl⟩

theorem countsWhole_copyFrom {deadline : Option Nat} {time : Nat}
    (h : (copyFrom deadline time w 0 chunks).result? = some (.ok n)) {held : σ → Bytes}
    (hheld : Sink.Holds held) : CountsWhole (readsOf chunks) (held w)
      (held (copyFrom deadline time w 0 chunks).writer) n := by
  obtain ⟨taken, hproxied⟩ := (delivered_copyFrom deadline time w 0 chunks).proxied h
  exact hproxied.countsWhole hheld

end

/-- Of every stream and every sink: where a proxy comes to `n` bytes, these are the accepted bytes
of the reads that the sink took whole, so that less than a read may have been accepted besides; and
`n` is the number of all accepted bytes exactly if these are whole reads.  The same holds of what a
stream request on a camera reports and its writer has accepted. -/
theorem delivered_count_exact_iff_whole_reads (n : Nat) :
    (∀ {σ : Type} [Sink σ] (g : Guard) (process : StreamProcess), g.process = some process →
      ∀ (deadline : Option Nat) (time : Nat) (w : σ) (copy : Copy σ),
        (g.proxy deadline time w).2 = some copy → copy.result? = some (.ok n) →
        ∀ held, Sink.Holds held →
          let reads := readsOf process.chunks
          CountsWhole reads (held w) (held copy.writer) n ∧
          (held copy.writer).length < (held w).length + n + readSize ∧
          ((held copy.writer).length = (held w).length + n ↔
            ∃ done, done <+: reads ∧ held copy.writer = held w ++ done.flatten)) ∧
    ∀ (b : Bridge) (e : Entity) (w w' : Writer) (timeout : Option Nat),
      (b.stream e w timeout).2 = (.delivered n, w') → ∃ process, b.nextStream = .ok process ∧
        let reads := readsOf process.chunks
        CountsWhole reads w.written w'.written n ∧
        w'.written.length < w.written.length + n + readSize ∧
        (w'.written.length = w.written.length + n ↔
          ∃ done, done <+: reads ∧ w'.written = w.written ++ done.flatten) := by
  have hreads :
      ∀ process : StreamProcess, ∀ read ∈ readsOf process.chunks, read.length ≤ readSize :=
    fun _ _ => length_le_of_mem_readsOf
  constructor
  · intro σ _ g process hprocess deadline time w copy hcopy hresult held hheld reads
    rw [Guard.proxy, hprocess] at hcopy
    obtain rfl := Option.some.inj hcopy
    have hcounts := countsWhole_copyFrom hresult hheld
    exact ⟨hcounts, (hcounts.bounds (hreads process)).2, hcounts.exact_iff⟩
  · intro b e w w' timeout hstream
    cases hoffer : b.nextStream with
    | error f =>
      rw [Bridge.stream_of_error hoffer] at hstream
      cases hstream
    | ok process =>
      obtain ⟨-, -, hresult⟩ := Bridge.stream_eq hoffer e w timeout
      rw [hstream] at hresult
      obtain ⟨hafter, rfl⟩ := Prod.mk.inj hresult
      have hcopy : (b.copyOf process w timeout).result? = some (.ok n) := by
        rcases hcopy : (b.copyOf process w timeout).result? with _ | (_ | _)
        · rw [hcopy] at hafter
          cases hafter
        · rw [hcopy] at hafter
          cases hafter
        · rw [hcopy] at hafter
          cases hafter
          rfl
      have hcounts := countsWhole_copyFrom hcopy Writer.holds_written
      exact ⟨process, rfl, hcounts, (hcounts.bounds (hreads process)).2, hcounts.exact_iff⟩

/-- A writer that takes some bytes and then is gone. -/
def Writer.goneAfter (bytes : Nat) : Writer :=
  ⟨some bytes, some (.plain .brokenPipe), none, none, []⟩

/-- The camera of `shyCamera` with a stream to come. -/
def streamingCamera (chunks : List Chunk) : Bridge :=
  .setup (.ofSnapshot "test" Bridge.shyCamera) 30000 ⟨[], [.ok ⟨chunks, none⟩], []⟩

/-- A client that goes away between two frames has accepted what is counted. -/
theorem delivered_count_exact_iff_whole_reads_twoFrames :
    let b := streamingCamera [.bytes [1, 2, 3], .bytes [4, 5]]
    ∃ e w', b.entities[1]? = some e ∧ (b.stream e (.goneAfter 3) none).2 = (.delivered 3, w') ∧
      w'.written.length = 3 := by
  intro b
  obtain ⟨e, hent⟩ : ∃ e, b.entities[1]? = some e := ⟨_, rfl⟩
  have hstream : (b.stream e (.goneAfter 3) none).2 =
      (.delivered 3, (Writer.goneAfter 3).take [1, 2, 3]) := rfl
  obtain ⟨-, hrequest⟩ := delivered_count_exact_iff_whole_reads 3
  obtain ⟨process, hoffer, -, -, hexact⟩ := hrequest b e _ _ none hstream
  obtain rfl := Except.ok.inj hoffer
  exact ⟨e, _, hent, hstream, hexact.mpr ⟨[[1, 2, 3]], by decide +kernel, by decide +kernel⟩⟩

/-- A client that goes away within a frame has accepted bytes that are not counted. -/
theorem cut_frame_is_not_counted :
    let b := streamingCamera [.bytes [97, 98, 99]]
    ∃ e w', b.entities[1]? = some e ∧ e.isCamera = true ∧
      (b.stream e (.goneAfter 2) none).2 = (.delivered 0, w') ∧ w'.written = [97, 98] :=
  ⟨_, (Writer.goneAfter 2).take [97, 98], rfl, rfl, rfl, rfl⟩

end AlarmBridge
