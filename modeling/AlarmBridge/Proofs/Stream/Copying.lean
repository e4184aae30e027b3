import AlarmBridge.Proofs.Stream.Sink
import AlarmBridge.Proofs.Stream.Guard

/-! What a proxy delivers, and how it ends.  A stream is read in pieces no larger than the buffer,
and each is written until it is taken whole or a write fails; so a sink takes the bytes of the
stream in order up to where the stream ends or a write fails, and the result tells which it was. -/

set_option autoImplicit false

namespace AlarmBridge

theorem flatten_piecesFrom (fuel : Nat) (b : Bytes) : (piecesFrom fuel b).flatten = b := by
  induction fuel generalizing b with
  | zero => simp [piecesFrom]
  | succ fuel ih =>
    rw [piecesFrom]
    split
    · simp
    · rw [List.flatten_cons, ih, List.take_append_drop]

@[simp] theorem flatten_pieces (b : Bytes) : (pieces b).flatten = b := flatten_piecesFrom _ b

theorem length_le_of_mem_piecesFrom {fuel : Nat} {b r : Bytes} (hfuel : b.length / readSize ≤ fuel)
    (hr : r ∈ piecesFrom fuel b) : r.length ≤ readSize := by
  induction fuel generalizing b with
  | zero =>
    obtain rfl := List.mem_singleton.mp hr
    unfold readSize at *
    omega
  | succ fuel ih =>
    rw [piecesFrom] at hr
    split at hr
    · next hle =>
      obtain rfl := List.mem_singleton.mp hr
      exact hle
    · rcases List.mem_cons.mp hr with rfl | hr
      · exact List.length_take_le _ _
      · refine ih ?_ hr
        rw [List.length_drop]
        unfold readSize at *
        omega

/-- A read returns no more than fits in the buffer. -/
theorem length_le_of_mem_pieces {b r : Bytes} (hr : r ∈ pieces b) : r.length ≤ readSize :=
  length_le_of_mem_piecesFrom (Nat.le_refl _) hr

/-- The chunks of bytes that a stream puts out before it ends or an empty one looks like its end,
and the fault that it ends with, if it does. -/
def emitted : List Chunk → List Bytes × Option IoError
  | [] => ([], none)
  | .bytes b :: rest => if b.isEmpty then ([], none) else (b :: (emitted rest).1, (emitted rest).2)
  | .fault e :: _ => ([], some e)
  | .pause _ :: rest => emitted rest
  | .pausedUntil _ :: rest => emitted rest
  | .hang :: rest => emitted rest

/-- The reads that a stream takes before it ends. -/
def readsOf (chunks : List Chunk) : List Bytes := (emitted chunks).1.flatMap pieces

theorem flatten_readsOf (chunks : List Chunk) :
    (readsOf chunks).flatten = (emitted chunks).1.flatten := by
  unfold readsOf
  induction (emitted chunks).1 with
  | nil => rfl
  | cons b bs ih =>
    rw [List.flatMap_cons, List.flatten_append, ih, flatten_pieces, List.flatten_cons]

theorem length_le_of_mem_readsOf {chunks : List Chunk} {r : Bytes} (hr : r ∈ readsOf chunks) :
    r.length ≤ readSize := by
  obtain ⟨b, -, hr⟩ := List.mem_flatMap.mp hr
  exact length_le_of_mem_pieces hr

section

open Sink (Takes Refuses Wrote)

variable {σ : Type} [Sink σ]

/-- What writing some reads in turn comes to, with the bytes that are taken and the number of those
in reads that are taken whole: all are taken, or some and a part of the next one, of which a write
fails. -/
inductive Delivers (w : σ) (reads : List Bytes) : Bytes → Nat → σ → Option IoError → Prop
  | whole {s : σ} :
    Takes w reads.flatten s → Delivers w reads reads.flatten reads.flatten.length s none
  | cut {done : List Bytes} {read part : Bytes} {t s : σ} {e : IoError} :
    done ++ [read] <+: reads → Takes w (done.flatten ++ part) t → part <+: read →
    part.length < read.length → Refuses t e s →
    Delivers w reads (done.flatten ++ part) done.flatten.length s (some e)

variable {w w' s : σ} {reads : List Bytes} {taken : Bytes} {count : Nat} {e? : Option IoError}

namespace Delivers

/-- Reads that are taken whole may precede. -/
theorem after {before : List Bytes} (htakes : Takes w before.flatten w')
    (h : Delivers w' reads taken count s e?) :
    Delivers w (before ++ reads) (before.flatten ++ taken) (before.flatten.length + count)
      s e? := by
  cases h with
  | whole hmore =>
    rw [← List.length_append, ← List.flatten_append]
    exact .whole (List.flatten_append ▸ htakes.trans hmore)
  | @cut done read part t _ e hdone hmore hpart hlt hrefuses =>
    rw [← List.length_append, ← List.append_assoc, ← List.flatten_append]
    refine .cut ?_ ?_ hpart hlt hrefuses
    · rw [List.append_assoc]
      exact (List.prefix_append_right_inj before).mpr hdone
    · rw [List.flatten_append, List.append_assoc]
      exact htakes.trans hmore

/-- What follows a write that fails does not matter. -/
theorem append {e : IoError} (h : Delivers w reads taken count s (some e)) (more : List Bytes) :
    Delivers w (reads ++ more) taken count s (some e) := by
  cases h with
  | cut hdone htakes hpart hlt hrefuses =>
    exact .cut (hdone.trans (List.prefix_append _ _)) htakes hpart hlt hrefuses

theorem taken_prefix (h : Delivers w reads taken count s e?) : taken <+: reads.flatten := by
  cases h with
  | whole => exact List.prefix_rfl
  | cut hdone htakes hpart hlt hrefuses =>
    obtain ⟨more, rfl⟩ := hdone
    rw [List.append_assoc, List.flatten_append, List.flatten_append, List.flatten_singleton]
    exact (List.prefix_append_right_inj _).mpr (hpart.trans (List.prefix_append _ _))

theorem held {held : σ → Bytes} (hheld : Sink.Holds held)
    (h : Delivers w reads taken count s e?) : held s = held w ++ taken := by
  cases h with
  | whole htakes => exact htakes.held hheld
  | cut _ htakes _ _ hrefuses => rw [hrefuses.held hheld, htakes.held hheld]

/-- To a sink that takes everything all reads are delivered. -/
theorem of_unfailing (hw : Sink.Unfailing w) (h : Delivers w reads taken count s e?) :
    taken = reads.flatten ∧ count = reads.flatten.length ∧ e? = none := by
  cases h with
  | whole => exact ⟨rfl, rfl, rfl⟩
  | cut _ htakes _ _ hrefuses => exact absurd hrefuses (hw _ _ htakes _ _)

end Delivers

theorem delivers_writeReads (w : σ) (total : Nat) (reads : List Bytes) :
    ∃ taken count, (writeReads w total reads).2.1 = total + count ∧
      Delivers w reads taken count (writeReads w total reads).1
        ((writeReads w total reads).2.2.map (·.1)) := by
  induction reads generalizing w total with
  | nil => exact ⟨[], 0, rfl, .whole (.nil w)⟩
  | cons b bs ih =>
    have hwrote := Sink.wrote_writeAll w b
    rw [writeReads]
    rcases hwrite : Sink.writeAll w b with ⟨w', _ | e⟩
    · rw [hwrite] at hwrote
      have htakes : Takes w [b].flatten w' := (List.flatten_singleton (l := b)).symm ▸ hwrote
      obtain ⟨taken, count, htotal, hdelivers⟩ := ih w' (total + b.length)
      refine ⟨_, [b].flatten.length + count, ?_, hdelivers.after htakes⟩
      simp only [htotal, List.flatten_singleton, Nat.add_assoc]
    · rw [hwrite] at hwrote
      obtain ⟨part, t, htakes, hpart, hlt, hrefuses⟩ := hwrote
      have hfirst : [] ++ [b] <+: b :: bs := List.prefix_append [b] bs
      exact ⟨_, 0, rfl, .cut hfirst htakes hpart hlt hrefuses⟩

/-- A copy from a state of a sink on has delivered the reads of a stream, up to its end or to a
write that fails; where its caller has given up, what is left is the rest of the stream. -/
def Copy.Delivered (w : σ) (total : Nat) (chunks : List Chunk) (c : Copy σ) : Prop :=
  match c.ending with
  | .complete => (emitted chunks).2 = none ∧ ∃ taken count, c.total = total + count ∧
      Delivers w (readsOf chunks) taken count c.writer none
  | .readFault e => (emitted chunks).2 = some e ∧ ∃ taken count, c.total = total + count ∧
      Delivers w (readsOf chunks) taken count c.writer none
  | .writeFault e => ∃ taken count, c.total = total + count ∧
      Delivers w (readsOf chunks) taken count c.writer (some e)
  | .abandoned => ∃ taken, Takes w taken c.writer ∧ c.total = total + taken.length ∧
      taken ++ (emitted c.rest).1.flatten = (emitted chunks).1.flatten ∧
      (emitted c.rest).2 = (emitted chunks).2

theorem readsOf_cons {b : Bytes} (hb : b.isEmpty = false) (rest : List Chunk) :
    readsOf (.bytes b :: rest) = pieces b ++ readsOf rest := by
  simp [readsOf, emitted, hb]

/-- A chunk that is taken whole may precede. -/
theorem Copy.Delivered.after {total : Nat} {b : Bytes} {rest : List Chunk} {c : Copy σ}
    (hb : b.isEmpty = false) (htakes : Takes w b w') (h : c.Delivered w' (total + b.length) rest) :
    c.Delivered w total (.bytes b :: rest) := by
  have hdelivers : ∀ {taken count e?}, c.total = total + b.length + count →
      Delivers w' (readsOf rest) taken count c.writer e? → ∃ taken count, c.total = total + count ∧
        Delivers w (readsOf (.bytes b :: rest)) taken count c.writer e? := by
    intro taken count e? htotal hdelivers
    have htakes : Takes w (pieces b).flatten w' := (flatten_pieces b).symm ▸ htakes
    refine ⟨_, _, ?_, readsOf_cons hb rest ▸ hdelivers.after htakes⟩
    rw [flatten_pieces, htotal, Nat.add_assoc]
  have hfault : (emitted (.bytes b :: rest)).2 = (emitted rest).2 := by simp [emitted, hb]
  unfold Delivered at h ⊢
  rw [hfault]
  split at h
  · obtain ⟨hend, taken, count, htotal, h⟩ := h
    exact ⟨hend, hdelivers htotal h⟩
  · obtain ⟨hend, taken, count, htotal, h⟩ := h
    exact ⟨hend, hdelivers htotal h⟩
  · obtain ⟨taken, count, htotal, h⟩ := h
    exact hdelivers htotal h
  · obtain ⟨taken, hmore, htotal, hrest, hend⟩ := h
    refine ⟨b ++ taken, htakes.trans hmore, ?_, ?_, hend⟩
    · rw [htotal, List.length_append, Nat.add_assoc]
    · rw [List.append_assoc, hrest]
      simp [emitted, hb]

theorem delivered_copyFrom (deadline : Option Nat) (time : Nat) (w : σ) (total : Nat)
    (chunks : List Chunk) : (copyFrom deadline time w total chunks).Delivered w total chunks := by
  -- a caller that gives up has taken nothing since, and leaves what a later proxy reads
  have hgiven : ∀ {time : Nat} {w : σ} {total : Nat} {rest chunks : List Chunk},
      emitted rest = emitted chunks →
      (Copy.mk .abandoned time w total rest).Delivered w total chunks := fun hsame =>
    ⟨[], .nil _, rfl, congrArg (·.1.flatten) hsame, congrArg (·.2) hsame⟩
  fun_induction copyFrom deadline time w total chunks with
  | case1 time w total => exact ⟨rfl, [], 0, rfl, .whole (.nil w)⟩
  | case2 time w total b rest hb =>
    obtain rfl := List.isEmpty_iff.mp hb
    exact ⟨rfl, [], 0, rfl, .whole (.nil w)⟩
  | case3 time w total b rest hb w' total' hwrite ih =>
    -- the chunk is taken whole, and the copy goes on with the rest
    obtain ⟨taken, count, htotal, hdelivers⟩ := delivers_writeReads w total (pieces b)
    rw [hwrite] at htotal hdelivers
    cases hdelivers with
    | whole htakes =>
      rw [flatten_pieces] at htakes htotal
      obtain rfl : total' = total + b.length := htotal
      exact ih.after (by simpa using hb) htakes
  | case4 time w total b rest hb w' total' e reads hwrite =>
    -- a write of the chunk fails, whatever comes after it
    obtain ⟨taken, count, htotal, hdelivers⟩ := delivers_writeReads w total (pieces b)
    rw [hwrite] at htotal hdelivers
    exact ⟨taken, count, htotal, readsOf_cons (by simpa using hb) rest ▸ hdelivers.append _⟩
  | case5 time w total e rest => exact ⟨rfl, [], 0, rfl, .whole (.nil w)⟩
  | case6 _ _ _ _ _ _ _ ih => exact ih
  | case7 => exact hgiven rfl
  | case8 _ _ _ _ _ _ _ ih => exact ih
  | case9 => exact hgiven rfl
  | case10 _ _ _ _ _ _ ih => exact ih
  | case11 => exact hgiven rfl

/-- How a proxy comes to a result, with the bytes that the sink has taken: at the end of the stream
or where the client goes away it is what flushing comes to, and else the error of the read or the
write. -/
inductive Proxied (w : σ) (chunks : List Chunk) : Bytes → σ → Except StreamCause Nat → Prop
  | ended {taken : Bytes} {count : Nat} {s : σ} :
    (emitted chunks).2 = none → Delivers w (readsOf chunks) taken count s none →
    Proxied w chunks taken s (Sink.flushed s count)
  | readFault {taken : Bytes} {count : Nat} {s : σ} {e : IoError} :
    (emitted chunks).2 = some e → Delivers w (readsOf chunks) taken count s none →
    Proxied w chunks taken s (.error (.read e))
  | disconnected {taken : Bytes} {count : Nat} {s : σ} {e : IoError} :
    Delivers w (readsOf chunks) taken count s (some e) → e.isDisconnect = true →
    Proxied w chunks taken s (Sink.flushed s count)
  | writeFault {taken : Bytes} {count : Nat} {s : σ} {e : IoError} :
    Delivers w (readsOf chunks) taken count s (some e) → e.isDisconnect = false →
    Proxied w chunks taken s (.error (.write e))

theorem Copy.Delivered.proxied {c : Copy σ} {chunks : List Chunk} {result : Except StreamCause Nat}
    (h : c.Delivered w 0 chunks) (hresult : c.result? = some result) :
    ∃ taken, Proxied w chunks taken c.writer result := by
  have hflush : ∀ {count}, c.total = 0 + count → c.flush = Sink.flushed c.writer count := by
    intro count htotal
    rw [← Nat.zero_add count, ← htotal]
    rfl
  unfold Delivered at h
  unfold result? at hresult
  cases hending : c.ending with
  | complete =>
    rw [hending] at h hresult
    obtain ⟨hend, taken, count, htotal, hdelivers⟩ := h
    obtain rfl : c.flush = result := Option.some.inj hresult
    exact ⟨taken, hflush htotal ▸ .ended hend hdelivers⟩
  | readFault e =>
    rw [hending] at h hresult
    obtain ⟨hend, taken, count, htotal, hdelivers⟩ := h
    obtain rfl := Option.some.inj hresult
    exact ⟨taken, .readFault hend hdelivers⟩
  | writeFault e =>
    rw [hending] at h hresult
    obtain ⟨taken, count, htotal, hdelivers⟩ := h
    obtain rfl := Option.some.inj hresult
    cases hgone : e.isDisconnect with
    | true => exact ⟨taken, hflush htotal ▸ .disconnected hdelivers hgone⟩
    | false => exact ⟨taken, .writeFault hdelivers hgone⟩
  | abandoned =>
    rw [hending] at hresult
    cases hresult

namespace Proxied

variable {chunks : List Chunk} {result : Except StreamCause Nat}

theorem delivers (h : Proxied w chunks taken s result) :
    ∃ count e?, Delivers w (readsOf chunks) taken count s e? := by
  cases h with
  | ended _ hdelivers => exact ⟨_, _, hdelivers⟩
  | readFault _ hdelivers => exact ⟨_, _, hdelivers⟩
  | disconnected hdelivers _ => exact ⟨_, _, hdelivers⟩
  | writeFault hdelivers _ => exact ⟨_, _, hdelivers⟩

/-- A sink that takes everything and can be flushed gets the whole stream, and the result tells how
the stream ended. -/
theorem of_unfailing (hw : Sink.Unfailing w) (hflush : Sink.flushFault s = none)
    (h : Proxied w chunks taken s result) :
    taken = (emitted chunks).1.flatten ∧ result = match (emitted chunks).2 with
      | none => .ok (emitted chunks).1.flatten.length
      | some e => .error (.read e) := by
  rw [← flatten_readsOf]
  cases h with
  | ended hend hdelivers =>
    obtain ⟨htaken, hcount, -⟩ := hdelivers.of_unfailing hw
    rw [hend, Sink.flushed, hflush, hcount]
    exact ⟨htaken, rfl⟩
  | readFault hend hdelivers =>
    rw [hend]
    exact ⟨(hdelivers.of_unfailing hw).1, rfl⟩
  | disconnected hdelivers _ => cases (hdelivers.of_unfailing hw).2.2
  | writeFault hdelivers _ => cases (hdelivers.of_unfailing hw).2.2

end Proxied

/-- Of every stream and every sink: a proxy gives the sink the bytes of the stream from the first on
and no others, and comes to a result in one of the four ways of `Proxied`, whatever the chunks; it
does come to one if it has no deadline and no read hangs.  A sink that takes everything and can be
flushed gets the whole stream, up to its end or to a read that fails. -/
theorem proxy_delivers {σ : Type} [Sink σ] {g : Guard} {process : StreamProcess}
    (hprocess : g.process = some process) (deadline : Option Nat) (time : Nat) (w : σ) :
    let output := (emitted process.chunks).1.flatten
    (readsOf process.chunks).flatten = output ∧
    (∀ read ∈ readsOf process.chunks, read.length ≤ readSize) ∧
    ∃ copy, (g.proxy deadline time w).2 = some copy ∧
      (deadline = none → .hang ∉ process.chunks → copy.result?.isSome = true) ∧
      ∀ result, copy.result? = some result →
        ∃ taken, taken <+: output ∧ Proxied w process.chunks taken copy.writer result ∧
          (∀ held, Sink.Holds held → held copy.writer = held w ++ taken) ∧
          (Sink.Unfailing w → Sink.flushFault copy.writer = none →
            taken = output ∧ result = match (emitted process.chunks).2 with
              | none => .ok output.length
              | some e => .error (.read e)) := by
  intro output
  refine ⟨flatten_readsOf _, fun _ => length_le_of_mem_readsOf,
    copyFrom deadline time w 0 process.chunks, ?_, ?_, ?_⟩
  · rw [Guard.proxy, hprocess]
  · intro hdeadline hhang
    rw [Option.isSome_iff_ne_none]
    intro hnone
    rcases gives_up_of_no_result hnone with ⟨limit, hlimit, -⟩ | ⟨-, hhangs⟩
    · rw [hdeadline] at hlimit
      cases hlimit
    · exact hhang hhangs
  · intro result hresult
    obtain ⟨taken, hproxied⟩ :=
      (delivered_copyFrom deadline time w 0 process.chunks).proxied hresult
    obtain ⟨count, e?, hdelivers⟩ := hproxied.delivers
    have hprefix : taken <+: output := by
      have hread := hdelivers.taken_prefix
      rwa [flatten_readsOf] at hread
    exact ⟨taken, hprefix, hproxied, fun held hheld => hdelivers.held hheld,
      fun hw hflush => hproxied.of_unfailing hw hflush⟩

end

/-- A stream of two chunks that then fails to be read gives all it has to a writer that takes two
bytes at a time. -/
theorem proxy_delivers_twoAtATime :
    let g := Guard.of ⟨[.bytes [1, 2, 3], .pause 5, .bytes [4, 5], .fault (.plain .timedOut)], none⟩
      "c1-camera"
    let w : Writer := ⟨none, none, some 2, none, []⟩
    ∃ copy, (g.proxy none 0 w).2 = some copy ∧ copy.writer.written = [1, 2, 3, 4, 5] ∧
      copy.result? = some (.error (.read (.plain .timedOut))) := by
  intro g w
  obtain ⟨-, -, copy, hcopy, hreturns, hresult⟩ := proxy_delivers (g := g) rfl none 0 w
  obtain ⟨result, hsome⟩ := Option.isSome_iff_exists.mp (hreturns rfl (by decide))
  obtain ⟨taken, -, -, hheld, hwhole⟩ := hresult result hsome
  have hunfailing : Sink.Unfailing w := Writer.Endless.unfailing ⟨rfl, by decide⟩
  have hflush : Sink.flushFault copy.writer = none := by
    obtain rfl := Option.some.inj hcopy
    decide +kernel
  obtain ⟨rfl, rfl⟩ := hwhole hunfailing hflush
  exact ⟨copy, hcopy, hheld _ Writer.holds_written, hsome⟩

end AlarmBridge
