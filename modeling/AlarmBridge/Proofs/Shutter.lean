import AlarmBridge.Proofs.Bridge.Muted
import AlarmBridge.Proofs.Streams

/-! The privacy shutter.  It is closed if the arm state is one of those that the camera has a flag
for and that flag is not set.  Still images honour it: with the shutter closed a camera is asked for
nothing and the last image is served.  Streams do not look at it, so a run honours the shutter
exactly if it asks for no stream of a camera whose shutter is closed. -/

set_option autoImplicit false

namespace AlarmBridge

/-- Whether the flag of a camera for an arm state is there and not set. -/
def CameraRecord.ShutUnder (r : CameraRecord) (state : ArmState) : Prop :=
  state = .off ∧ r.shutterOpenWhenOff = false ∨ state = .home ∧ r.shutterOpenWhenHome = false ∨
    state = .away ∧ r.shutterOpenWhenAway = false

theorem CameraRecord.shutterOpen_eq_false_iff {r : CameraRecord} {state : ArmState} :
    r.shutterOpen state = false ↔ r.ShutUnder state := by
  cases state <;> simp [shutterOpen, ShutUnder]

theorem Session.shutterOpen_eq_false_iff {s : Session} {systemId : UInt64} {serial : String} :
    s.shutterOpen systemId serial = false ↔
      ∃ system r, s.systems.get? systemId = some system ∧ s.camera? systemId serial = some r ∧
        r.ShutUnder system.state := by
  unfold shutterOpen
  constructor
  · intro h
    split at h
    · next system r hsystem hr =>
      exact ⟨system, r, hsystem, hr, CameraRecord.shutterOpen_eq_false_iff.mp h⟩
    · cases h
  · rintro ⟨system, r, hsystem, hr, hshut⟩
    simp only [hsystem, hr]
    exact CameraRecord.shutterOpen_eq_false_iff.mpr hshut

namespace Bridge

/-- The place of the entity that a step asks for a still image or a stream. -/
def Step.camera? : Step → Option Nat
  | .fetch i _ => some i
  | .stream i _ _ => some i
  | _ => none

/-- What a step asks the grabber to read from is the video of the camera that the step is for. -/
theorem input_of_mem_calling {b : Bridge} {s : Step} {call : GrabberCall} {input : StreamInput}
    (h : call ∈ b.calling s) (hinput : call.input? = some input) :
    ∃ i e, s.camera? = some i ∧ b.entities[i]? = some e ∧ input = b.streamInput e := by
  cases s with
  | fetch i timeout =>
    simp only [calling] at h
    split at h
    · cases h
    · next e hent =>
      split at h
      · obtain rfl := List.mem_singleton.mp h
        exact ⟨i, e, rfl, hent, (Option.some.inj hinput).symm⟩
      · cases h
  | stream i w timeout =>
    simp only [calling] at h
    split at h
    · cases h
    · next e hent =>
      refine ⟨i, e, rfl, hent, ?_⟩
      unfold streamCalls at h
      split at h
      · obtain rfl := List.mem_singleton.mp h
        exact (Option.some.inj hinput).symm
      · rcases List.mem_cons.mp h with rfl | h
        · exact (Option.some.inj hinput).symm
        · obtain rfl := List.mem_singleton.mp h
          cases hinput
  | _ => cases h

/-- A step asks nothing of the grabber for an entity whose shutter is closed. -/
def Honours (b : Bridge) (s : Step) : Prop :=
  ∀ i e, s.camera? = some i → b.entities[i]? = some e → b.shutterOpen e = false →
    (b.step s).1.grabber.calls = b.grabber.calls

variable {b : Bridge}

theorem streamCalls_ne_nil (e : Entity) (w : Writer) (timeout : Option Nat) :
    b.streamCalls e w timeout ≠ [] := by
  unfold streamCalls
  split <;> simp

theorem calling_fetch_of_shut {i : Nat} {e : Entity} (hent : b.entities[i]? = some e)
    (hshut : b.shutterOpen e = false) (timeout : Option Nat) :
    b.calling (.fetch i timeout) = [] := by
  simp [calling, hent, hshut]

/-- Only a stream of an entity whose shutter is closed does not honour it. -/
theorem honours_iff {s : Step} :
    b.Honours s ↔ ∀ i w timeout e, s = .stream i w timeout → b.entities[i]? = some e →
      b.shutterOpen e = true := by
  constructor
  · rintro h i w timeout e rfl hent
    by_contra hshut
    have hcalls := h i e rfl hent (Bool.eq_false_iff.mpr hshut)
    have hcalling : b.calling (.stream i w timeout) = b.streamCalls e w timeout := by
      simp [calling, hent]
    rw [calls_step, hcalling, List.append_right_eq_self] at hcalls
    exact streamCalls_ne_nil e w timeout hcalls
  · intro h i e hcamera hent hshut
    rw [calls_step]
    cases s with
    | fetch j timeout =>
      obtain rfl : j = i := Option.some.inj hcamera
      rw [calling_fetch_of_shut hent hshut, List.append_nil]
    | stream j w timeout =>
      obtain rfl : j = i := Option.some.inj hcamera
      have hopen := h j w timeout e rfl hent
      rw [hshut] at hopen
      cases hopen
    | _ => cases hcamera

/-- Asked for a still image with the shutter closed, a camera serves its last one and that is
all. -/
theorem step_fetch_of_shut {i : Nat} {e : Entity} (hsettled : Settled b)
    (hent : b.entities[i]? = some e) (hshut : b.shutterOpen e = false) (timeout : Option Nat) :
    b.step (.fetch i timeout) = (b, .still (.image (b.cachedImage? i))) := by
  have hact : b.act (.fetch i timeout) = (b, .still (.image (b.cachedImage? i))) := by
    simp only [act, hent, fetch_of_shut hshut]
  rw [step, hact]
  exact congrArg (·, Answer.still (.image (b.cachedImage? i))) hsettled.settle

/-- Of every session and every run: the shutter of an entity is closed exactly if the arm state of
its system is one that its camera has a flag for, which is not set; asked for a still image then,
the camera serves its last one and nothing else happens; and the run honours the shutter throughout
exactly if it asks for no stream while the shutter of the camera is closed. -/
theorem shutter_honoured_iff (s : Session) (clearDelay : Nat) (g : Grabber) (steps : List Step) :
    let start := setup s clearDelay g
    (∀ before i e, before <+: steps → (start.run before).entities[i]? = some e →
      ((start.run before).shutterOpen e = false ↔
        ∃ system r, (start.run before).session.systems.get? e.info.systemId = some system ∧
          (start.run before).session.camera? e.info.systemId e.info.deviceSerial = some r ∧
          r.ShutUnder system.state) ∧
      ((start.run before).shutterOpen e = false → ∀ timeout,
        (start.run before).step (.fetch i timeout) =
          (start.run before, .still (.image ((start.run before).cachedImage? i))))) ∧
    ((∀ before step, before ++ [step] <+: steps → (start.run before).Honours step) ↔
      ∀ before i w timeout e, before ++ [.stream i w timeout] <+: steps →
        (start.run before).entities[i]? = some e → (start.run before).shutterOpen e = true) := by
  intro start
  have hstart : Settled start := rfl
  have hsettled : ∀ before, Settled (start.run before) := fun before => settled_run hstart before
  refine ⟨fun before i e _ hent => ⟨Session.shutterOpen_eq_false_iff, fun hshut timeout => ?_⟩, ?_⟩
  · exact step_fetch_of_shut (hsettled before) hent hshut timeout
  · constructor
    · intro h before i w timeout e hprefix hent
      exact honours_iff.mp (h before _ hprefix) i w timeout e rfl hent
    · intro h before step hprefix
      refine honours_iff.mpr ?_
      rintro i w timeout e rfl hent
      exact h before i w timeout e hprefix hent

/-- An account with one camera, whose shutter is closed while somebody is at home. -/
def shyCamera : Snapshot :=
  ⟨"token", [⟨1, 3, .off, [], [⟨"c1", "Hall", .camera, "online", true, true, false, true⟩]⟩]⟩

/-- A stream of a camera whose shutter is closed is opened all the same. -/
theorem shut_camera_streams :
    let hall : StreamProcess := ⟨[.bytes [97, 98, 99]], none⟩
    let b :=
      (setup (.ofSnapshot "test" shyCamera) 30000 ⟨[], [.ok hall], []⟩).run [.setState 1 .home]
    ∃ e, b.entities[1]? = some e ∧ e.isCamera = true ∧ b.shutterOpen e = false ∧
      b.grabber.calls = [] ∧ ¬b.Honours (.stream 1 .unlimited none) ∧
      (b.step (.stream 1 .unlimited none)).1.grabber.calls =
        [.opened (b.streamInput e) true, .release .close] := by
  intro hall b
  obtain ⟨e, hent⟩ : ∃ e, b.entities[1]? = some e := ⟨_, rfl⟩
  have hshut : b.entities[1]?.any (fun e => e.isCamera && !b.shutterOpen e) = true := by
    decide +kernel
  obtain ⟨hcamera, hclosed⟩ : e.isCamera = true ∧ b.shutterOpen e = false := by
    simpa [hent] using hshut
  have hnone : b.grabber.calls = [] := by decide +kernel
  refine ⟨e, hent, hcamera, hclosed, hnone, fun h => ?_, ?_⟩
  · have hopen := honours_iff.mp h 1 .unlimited none e rfl hent
    rw [hclosed] at hopen
    cases hopen
  · have hresult : (b.copyOf hall .unlimited none).result? = some (.ok 3) := by decide +kernel
    have hcalling : b.calling (.stream 1 .unlimited none) = b.streamCalls e .unlimited none := by
      simp [calling, hent]
    have hoffer : b.nextStream = .ok hall := rfl
    rw [calls_step, hnone, hcalling, List.nil_append, streamCalls, hoffer]
    simp only [hresult]
    rfl

end Bridge

end AlarmBridge
