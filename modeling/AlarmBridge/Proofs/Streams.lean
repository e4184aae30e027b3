import AlarmBridge.Proofs.Bridge.Media
import AlarmBridge.Proofs.Stream.Guard
import AlarmBridge.Bridge.Step

/-! The streams of a bridge.  A stream that opens is released once, by closing it if the copy has
come to a result and by aborting it otherwise, and one that does not open is not released; so over
every run the streams opened are those closed and those aborted. -/

set_option autoImplicit false

namespace AlarmBridge

namespace GrabberCall

/-- Whether a call opened a stream. -/
def isOpened : GrabberCall → Bool
  | .opened _ success => success
  | _ => false

/-- Whether a call is a release of the given kind. -/
def isRelease (how : Release) : GrabberCall → Bool
  | .release h => h = how
  | _ => false

/-- What a call reads from, unless it releases a process. -/
def input? : GrabberCall → Option StreamInput
  | .grab input => some input
  | .opened input _ => some input
  | .release _ => none

/-- Every stream opened has been released once. -/
def Balanced (calls : List GrabberCall) : Prop :=
  calls.countP isOpened = calls.countP (isRelease .close) + calls.countP (isRelease .abort)

theorem Balanced.append {calls more : List GrabberCall} (h : Balanced calls)
    (hmore : Balanced more) :
    Balanced (calls ++ more) := by
  unfold Balanced at *
  simp only [List.countP_append]
  omega

theorem balanced_released (input : StreamInput) (how : Release) :
    Balanced [.opened input true, .release how] := by
  cases how <;> rfl

end GrabberCall

open GrabberCall (Balanced)

namespace Bridge

/-- The copy that a stream request makes. -/
def copyOf (b : Bridge) (process : StreamProcess) (w : Writer) (timeout : Option Nat) :
    Copy Writer :=
  copyFrom (timeout.map (b.now + ·)) b.now w 0 process.chunks

/-- A bridge whose next stream is the given process. -/
def offering (b : Bridge) (process : StreamProcess) : Bridge :=
  { b with grabber := { b.grabber with streams := .ok process :: b.grabber.streams.tail } }

section

variable {b : Bridge}

theorem grabber_runUntil (b : Bridge) (time : Nat) : (b.runUntil time).grabber = b.grabber :=
  (congrArg Bridge.grabber (bare_runUntil b time) :)

theorem grabber_runBefore (b : Bridge) (time : Nat) : (b.runBefore time).grabber = b.grabber := by
  rw [runBefore_eq]
  split
  · rfl
  · exact grabber_runUntil b (time - 1)

theorem grabber_deliver (e : PushEvent) (b : Bridge) (i : Nat) :
    (deliver e b i).grabber = b.grabber := (congrArg Bridge.grabber (bare_deliver e b i) :)

theorem grabber_dispatch (b : Bridge) (e : PushEvent) : (b.dispatch e).1.grabber = b.grabber := by
  obtain ⟨records, h⟩ := dispatch_eq b e
  have hfold : ((b.served e).foldl (deliver e) b).grabber = b.grabber :=
    List.foldlRecOn (motive := fun b' => b'.grabber = b.grabber) (b.served e) (deliver e) rfl
      fun b' hb' i _ => (grabber_deliver e b' i).trans hb'
  rw [h]
  exact hfold

theorem calls_opening (b : Bridge) (e : Entity) : (b.opening e).grabber.calls =
    b.grabber.calls ++ [.opened (b.streamInput e) (Except.toBool b.nextStream)] := rfl

theorem grabber_afterStream (b : Bridge) (run : StreamRun) :
    (b.afterStream run).grabber = b.grabber.noteReleases run.releases := by
  refine (grabber_runUntil _ _).trans ?_
  show (b.runBefore run.time).grabber.noteReleases run.releases = _
  rw [grabber_runBefore]

theorem now_afterStream (b : Bridge) (run : StreamRun) :
    (b.afterStream run).now = max b.now run.time := by
  have hbefore : (b.runBefore run.time).now = max b.now run.time :=
    congrArg Bridge.now (runBefore_eq b run.time)
  refine (now_runUntil _ _).trans ?_
  show max (b.runBefore run.time).now run.time = _
  omega

/-- A stream that opens is released once, as its copy ends. -/
theorem stream_eq {process : StreamProcess} (h : b.nextStream = .ok process) (e : Entity)
    (w : Writer) (timeout : Option Nat) :
    (b.stream e w timeout).1.grabber.calls = b.grabber.calls ++
        [.opened (b.streamInput e) true, .release (.after (b.copyOf process w timeout).result?)] ∧
      (b.stream e w timeout).1.now = max b.now (b.copyOf process w timeout).time ∧
      (b.stream e w timeout).2 =
        (.after (b.copyOf process w timeout).result?, (b.copyOf process w timeout).writer) := by
  obtain ⟨htime, hwriter, hresult, hreleases⟩ := serve_eq process e.info.uniqueId
    (timeout.map (b.now + ·)) b.now w
  rw [stream_of_ok h]
  refine ⟨?_, ?_, ?_⟩
  · show ((b.opening e).afterStream _).grabber.calls = _
    rw [grabber_afterStream]
    show (b.opening e).grabber.calls ++ _ = _
    rw [calls_opening, h, hreleases, List.append_assoc]
    rfl
  · show ((b.opening e).afterStream _).now = _
    rw [now_afterStream, htime]
    rfl
  · rw [hresult, hwriter]
    rfl

theorem grabber_fetch (b : Bridge) (i : Nat) (e : Entity) (timeout : Option Nat) :
    (b.fetch i e timeout).1.grabber =
      if b.shutterOpen e then (b.grabber.grab (b.streamInput e)).2 else b.grabber := by
  cases hshutter : b.shutterOpen e with
  | false =>
    rw [fetch_of_shut hshutter]
    rfl
  | true =>
    rw [fetch_of_open hshutter, grabber_runUntil]
    rfl

theorem calls_fetch (b : Bridge) (i : Nat) (e : Entity) (timeout : Option Nat) :
    (b.fetch i e timeout).1.grabber.calls =
      b.grabber.calls ++ if b.shutterOpen e then [.grab (b.streamInput e)] else [] := by
  rw [grabber_fetch]
  split
  · rfl
  · exact (List.append_nil _).symm

/-- What asking for a stream asks of the grabber: to open it and, if that succeeds, to release
it. -/
def streamCalls (b : Bridge) (e : Entity) (w : Writer) (timeout : Option Nat) : List GrabberCall :=
  match b.nextStream with
  | .error _ => [.opened (b.streamInput e) false]
  | .ok process =>
    [.opened (b.streamInput e) true, .release (.after (b.copyOf process w timeout).result?)]

theorem calls_stream (b : Bridge) (e : Entity) (w : Writer) (timeout : Option Nat) :
    (b.stream e w timeout).1.grabber.calls = b.grabber.calls ++ b.streamCalls e w timeout := by
  cases hoffer : b.nextStream with
  | error f =>
    rw [stream_of_error hoffer, calls_opening]
    simp only [streamCalls, hoffer]
    rfl
  | ok process =>
    rw [(stream_eq hoffer e w timeout).1]
    simp only [streamCalls, hoffer]

/-- What a step asks of the grabber. -/
def calling (b : Bridge) : Step → List GrabberCall
  | .fetch i _ =>
    match b.entities[i]? with
    | none => []
    | some e => if b.shutterOpen e then [.grab (b.streamInput e)] else []
  | .stream i w timeout =>
    match b.entities[i]? with
    | none => []
    | some e => b.streamCalls e w timeout
  | _ => []

/-- Whether a step has to do with the grabber. -/
def Step.usesGrabber : Step → Bool
  | .fetch .. | .stream .. | .queueFrame _ | .queueStream _ => true
  | _ => false

theorem grabber_act (b : Bridge) {s : Step} (h : s.usesGrabber = false) :
    (b.act s).1.grabber = b.grabber := by
  cases s with
  | publishAll => exact (congrArg Bridge.grabber (bare_publishAll b) :)
  | refresh => exact (congrArg Bridge.grabber (bare_refresh b) :)
  | poll text =>
    simp only [act]
    split
    · next next _ => exact (congrArg Bridge.grabber (bare_refresh (b.apply next)) :)
    · rfl
  | push text =>
    simp only [act]
    split
    · exact grabber_dispatch b _
    · rfl
  | dispatch e => exact grabber_dispatch b e
  | deliver i e => exact grabber_deliver e b i
  | advance ms => exact grabber_runUntil b _
  | look | apply | setState | close => rfl
  | fetch | stream | queueFrame | queueStream => cases h

theorem calls_act (b : Bridge) (s : Step) :
    (b.act s).1.grabber.calls = b.grabber.calls ++ b.calling s := by
  cases s with
  | fetch i timeout =>
    simp only [act, calling]
    cases b.entities[i]? with
    | none => exact (List.append_nil _).symm
    | some e => exact calls_fetch b i e timeout
  | stream i w timeout =>
    simp only [act, calling]
    cases b.entities[i]? with
    | none => exact (List.append_nil _).symm
    | some e => exact calls_stream b e w timeout
  | queueFrame | queueStream => exact (List.append_nil _).symm
  | _ =>
    rw [grabber_act b rfl]
    exact (List.append_nil _).symm

theorem calls_step (b : Bridge) (s : Step) :
    (b.step s).1.grabber.calls = b.grabber.calls ++ b.calling s := by
  have hsettle : (b.step s).1.grabber = (b.act s).1.grabber := grabber_runUntil _ _
  rw [hsettle, calls_act]

/-- A step opens and releases the same number of streams. -/
theorem balanced_calling (b : Bridge) (s : Step) : Balanced (b.calling s) := by
  cases s with
  | fetch i timeout =>
    simp only [calling]
    split
    · rfl
    · split <;> rfl
  | stream i w timeout =>
    simp only [calling]
    split
    · rfl
    · unfold streamCalls
      split
      · rfl
      · exact GrabberCall.balanced_released _ _
  | _ => rfl

theorem balanced_step (h : Balanced b.grabber.calls) (s : Step) :
    Balanced (b.step s).1.grabber.calls := by
  rw [calls_step]
  exact h.append (balanced_calling b s)

theorem balanced_run (h : Balanced b.grabber.calls) (steps : List Step) :
    Balanced (b.run steps).grabber.calls := by
  induction steps generalizing b with
  | nil => exact h
  | cons s steps ih => exact ih (balanced_step h s)

/-- After every run the streams opened are those closed and those aborted.  A stream that does not
open is not released; one that opens is released once, by closing it if its copy has come to a
result and by aborting it if the caller has given up before, and the result is that of the copy
however the closing ends.  Whatever is done with the guard of a process, the first release or drop
is the only one. -/
theorem streams_released_once (s : Session) (clearDelay : Nat) (frames : List Frame)
    (streams : List StreamOffer) (steps : List Step) :
    let b := (setup s clearDelay ⟨frames, streams, []⟩).run steps
    b.grabber.calls.countP GrabberCall.isOpened =
      b.grabber.calls.countP (GrabberCall.isRelease .close) +
        b.grabber.calls.countP (GrabberCall.isRelease .abort) ∧
    (∀ e w timeout f, b.nextStream = .error f →
      (b.stream e w timeout).1.grabber.calls =
        b.grabber.calls ++ [.opened (b.streamInput e) false] ∧
      (b.stream e w timeout).2 = (.failed f, w)) ∧
    (∀ e w timeout process, b.nextStream = .ok process →
      let copy := b.copyOf process w timeout
      (b.stream e w timeout).1.grabber.calls = b.grabber.calls ++
        [.opened (b.streamInput e) true, .release (.after copy.result?)] ∧
      (b.stream e w timeout).2 = (.after copy.result?, copy.writer) ∧
      (copy.result? = none →
        (∃ wait, timeout = some wait ∧ b.now + wait ≤ (b.stream e w timeout).1.now) ∨
          timeout = none ∧ .hang ∈ process.chunks)) ∧
    (∀ e w timeout process fault,
      ((b.offering { process with closeFault := fault }).stream e w timeout).2 =
        ((b.offering process).stream e w timeout).2) ∧
    ∀ process label (uses : List Guard.Use),
      (uses.foldl Guard.use (.of process label)).releases =
        (uses.findSome? Guard.Use.how?).toList := by
  intro b
  refine ⟨?_, ?_, ?_, ?_, ?_⟩
  · exact balanced_run (b := setup s clearDelay ⟨frames, streams, []⟩) rfl steps
  · intro e w timeout f hoffer
    rw [stream_of_error hoffer, calls_opening, hoffer]
    exact ⟨rfl, rfl⟩
  · intro e w timeout process hoffer copy
    obtain ⟨hcalls, hnow, hresult⟩ := stream_eq hoffer e w timeout
    refine ⟨hcalls, hresult, fun hnone => ?_⟩
    rcases gives_up_of_no_result hnone with ⟨limit, hlimit, hle⟩ | ⟨hlimit, hhang⟩
    · obtain ⟨wait, hwait, rfl⟩ := Option.map_eq_some_iff.mp hlimit
      have hcopy : b.now + wait ≤ copy.time := hle
      exact .inl ⟨wait, hwait, by rw [hnow]; exact Nat.le_trans hcopy (Nat.le_max_right _ _)⟩
    · exact .inr ⟨Option.map_eq_none_iff.mp hlimit, hhang⟩
  · intro e w timeout process fault
    have hfaulty := (stream_eq (b := b.offering { process with closeFault := fault }) rfl e w
      timeout).2.2
    have hplain := (stream_eq (b := b.offering process) rfl e w timeout).2.2
    exact hfaulty.trans hplain.symm
  · exact fun process label uses => Guard.releases_foldl_use rfl uses

/-- A caller that gives up on a stream that pauses leaves it aborted. -/
theorem streams_released_once_pausing :
    let pausing : StreamProcess := ⟨[.bytes [1, 2], .pause 10], some (.process "stuck")⟩
    let b := (setup ⟨"", .empty, ""⟩ 30000 ⟨[], [.ok pausing], []⟩).run [.advance 7]
    let e := cameraOf 1 ⟨"c1", "Door", .doorbell, "online", true, true, true, true⟩
    (b.stream e .unlimited (some 5)).1.grabber.calls =
      [.opened (b.streamInput e) true, .release .abort] := by
  intro pausing b e
  obtain ⟨-, -, hok, -⟩ :=
    streams_released_once ⟨"", .empty, ""⟩ 30000 [] [.ok pausing] [.advance 7]
  have hcalls := (hok e .unlimited (some 5) pausing (by rfl)).1
  have hresult : (b.copyOf pausing .unlimited (some 5)).result? = none := by decide +kernel
  have hnone : b.grabber.calls = [] := by decide +kernel
  rw [hresult] at hcalls
  exact hcalls.trans (congrArg (· ++ [.opened (b.streamInput e) true, .release .abort]) hnone)

end

end Bridge

end AlarmBridge
