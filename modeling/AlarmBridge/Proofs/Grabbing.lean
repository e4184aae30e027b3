import AlarmBridge.Camera.Ffmpeg
import AlarmBridge.Proofs.Lossy
import AlarmBridge.Proofs.Stills
import AlarmBridge.Proofs.Streams
import AlarmBridge.Proofs.Trimming

/-! Frames taken with the ffmpeg program.  However its process behaves, a frame is what it wrote if
it ended in time with success and wrote something, and else a failure that tells the first thing
that went wrong.  So the last image of a camera, if there is one, is all that some process wrote
that ended well. -/

set_option autoImplicit false

namespace AlarmBridge

namespace Ffmpeg

/-- A process ended before some seconds had passed. -/
def ProcessRun.InTime (run : ProcessRun) (timeoutSecs : UInt64) : Prop :=
  ∃ ms, run.duration = some ms ∧ ms < timeoutSecs.toNat * 1000

/-- What taking a frame comes to for each behaviour of the process. -/
inductive Grabbed (timeoutSecs : UInt64) :
    Except SpawnFault ProcessRun → Except Failure Bytes → Prop
  | unstarted (fault : SpawnFault) :
      Grabbed timeoutSecs (.error fault) (.error (.spawn fault.message))
  | late {run : ProcessRun} (h : ¬run.InTime timeoutSecs) :
      Grabbed timeoutSecs (.ok run) (.error (.timeout timeoutSecs))
  | failed {run : ProcessRun} {decoded text : List Char} (htime : run.InTime timeoutSecs)
      (hsuccess : run.success = false) (hshown : Text.Shown run.stderr decoded)
      (htext : Text.Trimmed decoded text) :
      Grabbed timeoutSecs (.ok run) (.error (.process (String.ofList text)))
  | empty {run : ProcessRun} (htime : run.InTime timeoutSecs) (hsuccess : run.success = true)
      (houtput : run.stdout = []) : Grabbed timeoutSecs (.ok run) (.error .emptyFrame)
  | frame {run : ProcessRun} (htime : run.InTime timeoutSecs) (hsuccess : run.success = true)
      (houtput : run.stdout ≠ []) : Grabbed timeoutSecs (.ok run) (.ok run.stdout)

variable {timeoutSecs : UInt64} {spawn : Except SpawnFault ProcessRun} {run : ProcessRun}

theorem inTime_iff :
    run.InTime timeoutSecs ↔ run.duration.any (· < timeoutSecs.toNat * 1000) = true := by
  unfold ProcessRun.InTime
  cases run.duration <;> simp

theorem grabbed_iff {result : Except Failure Bytes} :
    Grabbed timeoutSecs spawn result ↔ grabResult timeoutSecs spawn = result := by
  constructor
  · intro h
    cases h with
    | unstarted => rfl
    | late htime =>
      rw [inTime_iff, Bool.not_eq_true] at htime
      simp [grabResult, htime]
    | failed htime hsuccess hshown htext =>
      rw [inTime_iff] at htime
      simp [grabResult, htime, hsuccess, Text.shown_iff.mp hshown, Text.trimmed_iff.mp htext]
    | empty htime hsuccess houtput =>
      rw [inTime_iff] at htime
      simp [grabResult, htime, hsuccess, houtput]
    | frame htime hsuccess houtput =>
      rw [inTime_iff] at htime
      simp [grabResult, htime, hsuccess, houtput]
  · rintro rfl
    cases spawn with
    | error fault => exact .unstarted fault
    | ok run =>
      simp only [grabResult]
      split_ifs with htime hsuccess houtput
      · exact .late (by simpa [inTime_iff] using htime)
      · exact .failed (inTime_iff.mpr (by simpa using htime)) (by simpa using hsuccess)
          (Text.shown_iff.mpr rfl) (Text.trimmed_iff.mpr rfl)
      · exact .empty (inTime_iff.mpr (by simpa using htime)) (by simpa using hsuccess)
          (by simpa using houtput)
      · exact .frame (inTime_iff.mpr (by simpa using htime)) (by simpa using hsuccess)
          (by simpa using houtput)

/-- A process wrote an image: it ended in time and with success, and the image is all that it
wrote. -/
structure ProcessRun.Wrote (run : ProcessRun) (timeoutSecs : UInt64) (image : Bytes) : Prop where
  inTime : run.InTime timeoutSecs
  success : run.success = true
  output : run.stdout = image
  nonempty : image ≠ []

theorem grabResult_eq_ok_iff {image : Bytes} :
    grabResult timeoutSecs spawn = .ok image ↔
      ∃ run, spawn = .ok run ∧ run.Wrote timeoutSecs image := by
  rw [← grabbed_iff]
  constructor
  · rintro ⟨⟩
    exact ⟨_, rfl, ‹_›, ‹_›, rfl, ‹_›⟩
  · rintro ⟨run, rfl, htime, hsuccess, rfl, houtput⟩
    exact .frame htime hsuccess houtput

/-- What a frame taken with ffmpeg comes to. -/
def outcome (timeoutSecs : UInt64) (spawn : Except SpawnFault ProcessRun) : FrameOutcome :=
  match grabResult timeoutSecs spawn with
  | .ok image => .image image
  | .error f => .failed f

theorem outcome_eq_image_iff {image : Bytes} :
    outcome timeoutSecs spawn = .image image ↔
      ∃ run, spawn = .ok run ∧ run.Wrote timeoutSecs image := by
  rw [← grabResult_eq_ok_iff, outcome]
  split <;> simp_all

end Ffmpeg

namespace Bridge

variable {b : Bridge} {i : Nat} {f : Frame}

/-- The frame that a move queues. -/
def Move.queued? : Move → Option Frame
  | .step (.queueFrame frame) => some frame
  | _ => none

/-- The frames of a grabber and those that some moves queue. -/
def supply (g : Grabber) (ms : List Move) : List Frame := g.frames ++ ms.filterMap Move.queued?

theorem frames_grab (g : Grabber) (input : StreamInput) : (g.grab input).2.frames ⊆ g.frames :=
  (List.tail_sublist g.frames).subset

theorem frames_stream (b : Bridge) (e : Entity) (w : Writer) (timeout : Option Nat) :
    (b.stream e w timeout).1.grabber.frames = b.grabber.frames := by
  cases hoffer : b.nextStream with
  | error f =>
    rw [stream_of_error hoffer]
    rfl
  | ok process =>
    rw [stream_of_ok hoffer, grabber_afterStream]
    rfl

theorem mem_frames_act {s : Step} (hf : f ∈ (b.act s).1.grabber.frames) :
    f ∈ b.grabber.frames ∨ s = .queueFrame f := by
  cases s with
  | fetch j timeout =>
    simp only [act] at hf
    cases hent : b.entities[j]? with
    | none => exact .inl (by simpa [hent] using hf)
    | some e =>
      rw [hent] at hf
      simp only [grabber_fetch] at hf
      split at hf
      · exact .inl (frames_grab _ _ hf)
      · exact .inl hf
  | stream j w timeout =>
    simp only [act] at hf
    cases hent : b.entities[j]? with
    | none => exact .inl (by simpa [hent] using hf)
    | some e =>
      rw [hent] at hf
      simp only [frames_stream] at hf
      exact .inl hf
  | queueFrame frame =>
    rcases List.mem_append.mp hf with hf | hf
    · exact .inl hf
    · exact .inr (congrArg _ (List.mem_singleton.mp hf).symm)
  | queueStream offer => exact .inl hf
  | _ =>
    rw [grabber_act b rfl] at hf
    exact .inl hf

theorem mem_frames_move {m : Move} (hf : f ∈ (b.move m).grabber.frames) :
    f ∈ b.grabber.frames ∨ m.queued? = some f := by
  cases m with
  | step s =>
    have hsettle : (b.step s).1.grabber = (b.act s).1.grabber := grabber_runUntil _ _
    rw [move, hsettle] at hf
    refine (mem_frames_act hf).imp_right ?_
    rintro rfl
    rfl
  | ask j timeout =>
    simp only [move] at hf
    split at hf
    · exact .inl hf
    · next e _ =>
      have hsettle : (b.ask j e timeout).1.settle.grabber = (b.ask j e timeout).1.grabber :=
        grabber_runUntil _ _
      rw [hsettle, ask] at hf
      split at hf
      · exact .inl (frames_grab _ _ hf)
      · exact .inl hf

theorem mem_supply_move {m : Move} {ms : List Move} (hf : f ∈ supply (b.move m).grabber ms) :
    f ∈ supply b.grabber (m :: ms) := by
  rw [supply, List.mem_append] at hf ⊢
  rw [List.filterMap_cons]
  rcases hf with hf | hf
  · rcases mem_frames_move hf with hf | hqueued
    · exact .inl hf
    · rw [hqueued]
      exact .inr List.mem_cons_self
  · refine .inr ?_
    split
    · exact hf
    · exact List.mem_cons_of_mem _ hf

theorem nextFrame_mem (b : Bridge) :
    b.nextFrame ∈ b.grabber.frames ∨ b.nextFrame = Grabber.noFrame := by
  unfold nextFrame
  cases b.grabber.frames with
  | nil => exact .inr rfl
  | cons f fs => exact .inl List.mem_cons_self

theorem exists_nextFrame_of_mem_begins {s : Step} {d : Due FrameOutcome} (hd : d ∈ b.begins i s) :
    d.task = b.nextFrame.outcome := by
  unfold begins at hd
  split at hd
  · unfold grabOf at hd
    split_ifs at hd
    · rw [List.mem_singleton.mp hd]
    · cases hd
    · cases hd
  · cases hd

/-- A grab that comes to an image has come to that of a frame supplied. -/
theorem exists_supply_of_mem_grabs {ms : List Move} {d : Due FrameOutcome} {image : Bytes}
    (hd : d ∈ grabs i b ms) (himage : d.task = .image image) :
    ∃ f ∈ supply b.grabber ms, f.outcome = .image image := by
  induction ms generalizing b with
  | nil => cases hd
  | cons m ms ih =>
    rcases List.mem_append.mp hd with hd | hd
    · have houtcome := (exists_nextFrame_of_mem_begins hd).symm.trans himage
      rcases b.nextFrame_mem with hmem | hnone
      · exact ⟨b.nextFrame, List.mem_append_left _ hmem, houtcome⟩
      · rw [hnone] at houtcome
        cases houtcome
    · obtain ⟨f, hf, houtcome⟩ := ih hd
      exact ⟨f, mem_supply_move hf, houtcome⟩

theorem cachedImage?_of_not_camera (h : b.entities[i]?.any (·.isCamera) = false) :
    b.cachedImage? i = none := by
  unfold cachedImage?
  cases hent : b.entities[i]? with
  | none => rfl
  | some e =>
    obtain ⟨info, role, cell⟩ := e
    rw [hent] at h
    cases role with
    | camera image => cases h
    | polled => rfl
    | momentary => rfl

theorem any_isCamera_moves (b : Bridge) (ms : List Move) :
    (b.moves ms).entities[i]?.any (·.isCamera) = b.entities[i]?.any (·.isCamera) := by
  rw [← any_isCamera_bare, identities_moves, any_isCamera_bare]

/-- The last image of a camera is one that a frame supplied comes to. -/
theorem exists_supply_of_cachedImage? {s : Session} {clearDelay : Nat} {g : Grabber}
    {ms : List Move} {image : Bytes}
    (h : ((setup s clearDelay g).moves ms).cachedImage? i = some image) :
    ∃ f ∈ supply g ms, f.outcome = .image image := by
  have hcamera : (setup s clearDelay g).entities[i]?.any (·.isCamera) = true := by
    by_contra hother
    rw [Bool.not_eq_true, ← any_isCamera_moves _ ms] at hother
    rw [cachedImage?_of_not_camera hother] at h
    cases h
  obtain ⟨ent, hent, hcamera⟩ := (Option.any_eq_true _ _).mp hcamera
  obtain ⟨hkeeps, -⟩ := keeps_moves hent hcamera ms
  rw [hkeeps.image] at h
  obtain ⟨d, hd, himage⟩ := List.mem_filterMap.mp (List.mem_of_getLast? h)
  have hbegun : d ∈ grabs i (setup s clearDelay g) ms :=
    Agenda.mem_inOrder.mp ((List.takeWhile_sublist _).subset hd)
  exact exists_supply_of_mem_grabs hbegun (FrameOutcome.image?_eq_some_iff.mp himage)

/-- However the process of each frame behaves: a frame is an image exactly if the process ended in
time and with success, and the image is all that it wrote, and not nothing; else it comes to a
failure to start, a timeout, a failed process with what it said, or an empty frame, the first of
these that holds.  And whatever happens to a bridge whose frames are taken so, the last image of an
entity is none or all that one of the processes wrote which ended in time, with success and not
without output. -/
theorem grabbed_frames_are_never_mistaken (timeoutSecs : UInt64) :
    (∀ spawn image, Ffmpeg.grabResult timeoutSecs spawn = .ok image ↔
      ∃ run, spawn = .ok run ∧ run.Wrote timeoutSecs image) ∧
    (∀ spawn result, Ffmpeg.grabResult timeoutSecs spawn = result ↔
      Ffmpeg.Grabbed timeoutSecs spawn result) ∧
    ∀ (s : Session) (clearDelay : Nat) (g : Grabber) (ms : List Move)
      (spawns : List (Except Ffmpeg.SpawnFault Ffmpeg.ProcessRun)),
      (∀ f ∈ supply g ms, ∃ spawn ∈ spawns, f.outcome = Ffmpeg.outcome timeoutSecs spawn) →
      ∀ i, ((setup s clearDelay g).moves ms).cachedImage? i = none ∨
        ∃ run image, .ok run ∈ spawns ∧ run.Wrote timeoutSecs image ∧
          ((setup s clearDelay g).moves ms).cachedImage? i = some image := by
  refine ⟨fun _ _ => Ffmpeg.grabResult_eq_ok_iff, fun _ _ => Ffmpeg.grabbed_iff.symm, ?_⟩
  intro s clearDelay g ms spawns hsupply i
  cases hcached : ((setup s clearDelay g).moves ms).cachedImage? i with
  | none => exact .inl rfl
  | some image =>
    obtain ⟨f, hf, himage⟩ := exists_supply_of_cachedImage? hcached
    obtain ⟨spawn, hspawn, houtcome⟩ := hsupply f hf
    obtain ⟨run, rfl, hwrote⟩ := Ffmpeg.outcome_eq_image_iff.mp (houtcome.symm.trans himage)
    exact .inr ⟨run, image, hspawn, hwrote, rfl⟩

/-- Of four processes one does not start, one takes too long, one fails, and one writes an image. -/
theorem grabbed_frames_are_never_mistaken_fourProcesses :
    let failing : Ffmpeg.ProcessRun := ⟨some 20, false, [1], [0x20, 0xE2, 0x82, 0x21, 0x0A]⟩
    let writing : Ffmpeg.ProcessRun := ⟨some 30, true, [2, 3], []⟩
    let spawns : List (Except Ffmpeg.SpawnFault Ffmpeg.ProcessRun) :=
      [.error .nulInArgument, .ok ⟨some 10000, true, [4], []⟩, .ok failing, .ok writing]
    let g : Grabber := ⟨spawns.map fun spawn => ⟨Ffmpeg.outcome 10 spawn, 40⟩, [], []⟩
    let ms : List Move := List.replicate 4 (.ask 1 none) ++ [.step (.advance 50)]
    Ffmpeg.grabResult 10 (.ok failing) = .error (.process "\uFFFD!") ∧
    Ffmpeg.grabResult 10 (.ok writing) = .ok [2, 3] ∧
    ∃ run image, .ok run ∈ spawns ∧ run.Wrote 10 image ∧
      ((setup (.ofSnapshot "home" openCamera) 30000 g).moves ms).cachedImage? 1 = some image := by
  intro failing writing spawns g ms
  obtain ⟨himage, hresult, hcached⟩ := grabbed_frames_are_never_mistaken 10
  refine ⟨(hresult _ _).mpr ?_, (himage _ _).mpr ?_, ?_⟩
  · exact .failed ⟨20, rfl, by decide⟩ rfl (Text.shown_iff.mpr rfl) (Text.trimmed_iff.mpr rfl)
  · exact ⟨writing, rfl, ⟨30, rfl, by decide⟩, rfl, rfl, by decide⟩
  · have hsupply : ∀ f ∈ supply g ms, ∃ spawn ∈ spawns, f.outcome = Ffmpeg.outcome 10 spawn := by
      intro f hf
      have hframes : supply g ms = g.frames := List.append_nil _
      rw [hframes] at hf
      obtain ⟨spawn, hspawn, rfl⟩ := List.mem_map.mp hf
      exact ⟨spawn, hspawn, rfl⟩
    refine (hcached (.ofSnapshot "home" openCamera) 30000 g ms spawns hsupply 1).resolve_left ?_
    decide +kernel

end Bridge

end AlarmBridge
