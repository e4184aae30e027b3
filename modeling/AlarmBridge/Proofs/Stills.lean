import AlarmBridge.Proofs.Bridge.Frames
import AlarmBridge.Proofs.Bridge.Muted
import AlarmBridge.Proofs.Bridge.Registered

/-! The last image of a camera while several requests for one are under way.  Callers may be left
waiting while other things happen: `Move.ask` begins a request and goes on.  Whatever happens, the
last image is that of the grab completed last of those that came to one, whether or not its caller
still waits, and each caller gets what its own grab comes to, or gives up. -/

set_option autoImplicit false

namespace AlarmBridge.Bridge

/-- A thing that happens while callers may wait for still images: a step, or a request whose caller
is left waiting. -/
inductive Move
  | step (s : Step)
  | ask (camera : Nat) (timeout : Option Nat)

/-- The step that a move is, but for the waiting. -/
def Move.toStep : Move → Step
  | .step s => s
  | .ask i timeout => .fetch i timeout

def move (b : Bridge) : Move → Bridge
  | .step s => (b.step s).1
  | .ask i timeout =>
    match b.entities[i]? with
    | none => b
    | some e => (b.ask i e timeout).1.settle

def moves (b : Bridge) (ms : List Move) : Bridge := ms.foldl move b

/-- The grabs that some moves begin for the camera at a place, each with the time at which it is
completed. -/
def grabs (i : Nat) : Bridge → List Move → List (Due FrameOutcome)
  | _, [] => []
  | b, m :: ms => b.begins i m.toStep ++ grabs i (b.move m) ms

/-- The grabs for the camera at a place that are completed after some moves, in the order in which
they are. -/
def completed (i : Nat) (b : Bridge) (ms : List Move) : List (Due FrameOutcome) :=
  (Agenda.inOrder (grabs i b ms)).dueBy (b.moves ms).now

section

variable {b : Bridge} {i : Nat} {gs done : List (Due FrameOutcome)}

theorem moves_append (b : Bridge) (ms more : List Move) :
    b.moves (ms ++ more) = (b.moves ms).moves more := List.foldl_append

theorem grabs_append (i : Nat) (b : Bridge) (ms more : List Move) :
    grabs i b (ms ++ more) = grabs i b ms ++ grabs i (b.moves ms) more := by
  induction ms generalizing b with
  | nil => rfl
  | cons m ms ih =>
    rw [List.cons_append, grabs, grabs, ih, List.append_assoc]
    rfl

/-- Asking for a still image and waiting for it is beginning the request and letting the clock
run. -/
theorem fetch_eq_ask (hsettled : Settled b) (i : Nat) (e : Entity) (timeout : Option Nat) :
    b.fetch i e timeout =
      ((b.ask i e timeout).1.runUntil (b.ask i e timeout).2.ends,
        (b.ask i e timeout).2.answer) := by
  cases hshutter : b.shutterOpen e with
  | false =>
    have hask : b.ask i e timeout = (b, ⟨b.now, .image (b.cachedImage? i)⟩) := by
      simp [ask, hshutter]
    rw [hask, fetch_of_shut hshutter]
    exact congrArg (·, Still.image (b.cachedImage? i)) hsettled.settle.symm
  | true =>
    refine Prod.ext ?_ ?_
    · rw [fetch_of_open hshutter, ask, if_pos hshutter]
    · rw [still_of_open hshutter, ask, if_pos hshutter]

theorem Follows.ask {t₀ : Track} {c : Course} (h : Follows t₀ i c b) (j : Nat) (e : Entity)
    (timeout : Option Nat) : Follows t₀ i c (b.ask j e timeout).1 := by
  unfold Bridge.ask
  split
  · exact h.plan_of_ne rfl rfl rfl rfl rfl rfl (Nat.le_add_right _ _) nofun
  · exact h

theorem track_ask {t : Track} {j : Nat} (hb : Timely b) (ht : b.track j = some t) (i : Nat)
    (e : Entity) (timeout : Option Nat) (time : Nat) :
    ((b.ask i e timeout).1.runUntil time).track j = (b.runUntil time).track j ∧
      ((b.ask i e timeout).1.runUntil time).pendingClears j =
        (b.runUntil time).pendingClears j := by
  have hplain := (follows_self hb ht).runUntil time
  have hasked := ((follows_self hb ht).ask i e timeout).runUntil time
  exact ⟨hasked.track.trans hplain.track.symm, hasked.pending.trans hplain.pending.symm⟩

theorem identities_move (b : Bridge) (m : Move) : (b.move m).bare.entities = b.bare.entities := by
  cases m with
  | step s => exact (steady_step b s).identities
  | ask i timeout =>
    simp only [move]
    split
    · rfl
    · next e _ =>
      refine (steady_runUntil _ _).identities.trans ?_
      unfold ask
      split <;> rfl

theorem identities_moves (b : Bridge) (ms : List Move) :
    (b.moves ms).bare.entities = b.bare.entities :=
  List.foldlRecOn (motive := fun b' => b'.bare.entities = b.bare.entities) ms move rfl
    fun b' hb' m _ => (identities_move b' m).trans hb'

theorem settled_move (h : Settled b) (m : Move) : Settled (b.move m) := by
  cases m with
  | step s => exact settled_step b s
  | ask i timeout =>
    simp only [move]
    split
    · exact h
    · exact settled_settle _

theorem settled_moves (h : Settled b) (ms : List Move) : Settled (b.moves ms) :=
  List.foldlRecOn (motive := Settled) ms _ h fun _ hb m _ => settled_move hb m

theorem now_ask (b : Bridge) (i : Nat) (e : Entity) (timeout : Option Nat) :
    (b.ask i e timeout).1.now = b.now := by
  unfold ask
  split <;> rfl

theorem now_le_move (b : Bridge) (m : Move) : b.now ≤ (b.move m).now := by
  cases m with
  | step s => exact (steady_step b s).now
  | ask i timeout =>
    simp only [move]
    split
    · exact Nat.le_refl _
    · next e _ =>
      rw [← now_ask b i e timeout]
      exact (steady_runUntil _ _).now

/-- A move begins the grabs that it says, and keeps these with those before. -/
theorem Keeps.move {t₀ : Track} {c : Course} (h : Keeps i gs done b) (hfollows : Follows t₀ i c b)
    (m : Move) :
    KeepsOn i (gs ++ b.begins i m.toStep) done b (b.move m) ∧
      ∃ c', Follows t₀ i c' (b.move m) := by
  obtain ⟨ent, hent⟩ : ∃ ent, b.entities[i]? = some ent :=
    ⟨_, List.getElem?_eq_getElem hfollows.lt_length⟩
  cases m with
  | step s =>
    obtain ⟨c', hact, -⟩ := hfollows.act_step hent s
    refine ⟨(h.act hfollows s).trans (steady_act b s).now fun hacted => ?_, _, hact.runUntil _⟩
    exact hacted.runUntil _
  | ask j timeout =>
    simp only [Bridge.move, Move.toStep]
    cases hj : b.entities[j]? with
    | none =>
      have hne : j ≠ i := by
        rintro rfl
        rw [hent] at hj
        cases hj
      have hnone : b.begins i (.fetch j timeout) = [] := if_neg hne
      rw [hnone, List.append_nil]
      exact ⟨h.here, c, hfollows⟩
    | some e =>
      have hask := h.ask hj timeout
      have hnow : b.now ≤ (b.ask j e timeout).1.now := Nat.le_of_eq (now_ask b j e timeout).symm
      refine ⟨hask.here.trans hnow fun hasked => ?_, _, (hfollows.ask j e timeout).runUntil _⟩
      exact hasked.runUntil _

theorem Keeps.moves {t₀ : Track} {c : Course} (h : Keeps i gs done b) (hfollows : Follows t₀ i c b)
    (ms : List Move) :
    KeepsOn i (gs ++ grabs i b ms) done b (b.moves ms) ∧ ∃ c', Follows t₀ i c' (b.moves ms) := by
  -- each move adds to the grabs begun and to those completed
  induction ms generalizing b c gs done with
  | nil =>
    rw [grabs, List.append_nil]
    exact ⟨h.here, c, hfollows⟩
  | cons m ms ih =>
    obtain ⟨⟨fresh, hfresh, hmoved⟩, c', hnext⟩ := h.move hfollows m
    obtain ⟨hrest, hend⟩ := ih hmoved hnext
    have hmove : KeepsOn i (gs ++ b.begins i m.toStep) done b (b.move m) := ⟨fresh, hfresh, hmoved⟩
    refine ⟨hmove.trans (now_le_move b m) fun hmoved => ?_, hend⟩
    rw [grabs, ← List.append_assoc]
    exact (ih hmoved hnext).1

/-- Where nothing is due now, the grabs completed are those due by now. -/
theorem Keeps.dueBy_now (h : Keeps i gs done b) (hsettled : Settled b) :
    (Agenda.inOrder gs).dueBy b.now = done := by
  have hafter : b.agenda.after b.now = b.agenda := by
    have hsplit := b.agenda.dueBy_append_after b.now
    rw [show b.agenda.dueBy b.now = [] from hsettled] at hsplit
    exact hsplit
  rw [h.order]
  refine Agenda.dueBy_append h.past fun x hx => ?_
  obtain ⟨d, hd, htime⟩ := time_of_mem_framesOf hx
  rw [← hafter] at hd
  have := Agenda.lt_time_of_mem_after h.timely.sorted hd
  omega

theorem Keeps.cachedImage?_completed (h : Keeps i gs done b) (e : Entity) {image : Bytes}
    (himage : b.nextFrame.outcome = .image image) :
    ((b.grabbing i e).runUntil (b.now + b.nextFrame.delay)).cachedImage? i = some image := by
  have hframes : framesOf i (b.grabbing i e).agenda =
      (framesOf i b.agenda).plan (b.now + b.nextFrame.delay) b.nextFrame.outcome :=
    framesOf_plan h.timely.sorted _ _
  have hgrabbing := h.grabbing e
  rw [(hgrabbing.runUntil_dueBy _).image, ← framesOf_dueBy hgrabbing.timely.sorted, hframes,
    Agenda.dueBy_plan, ← List.append_assoc, himage]
  simp [images, FrameOutcome.image?]

section

variable {s : Session} {clearDelay : Nat} {g : Grabber} {ent : Entity}

theorem keeps_setup (hent : (setup s clearDelay g).entities[i]? = some ent)
    (hcamera : ent.isCamera = true) : Keeps i [] [] (setup s clearDelay g) where
  timely := (follows_start hent rfl rfl).timely
  camera := by rw [hent]; exact hcamera
  order := rfl
  past := nofun
  image := by
    obtain ⟨e, he, rfl⟩ := getElem?_setup hent
    have hnone : e.image? = none := image?_of_mem_entitiesOf he
    rw [cachedImage?, hent]
    exact hnone

/-- After any moves the grabs begun are kept, and those due by now are completed. -/
theorem keeps_moves (hent : (setup s clearDelay g).entities[i]? = some ent)
    (hcamera : ent.isCamera = true) (ms : List Move) :
    Keeps i (grabs i (setup s clearDelay g) ms) (completed i (setup s clearDelay g) ms)
        ((setup s clearDelay g).moves ms) ∧
      ∃ t₀ c, Follows t₀ i c ((setup s clearDelay g).moves ms) := by
  obtain ⟨⟨fresh, -, hkeeps⟩, c, hfollows⟩ :=
    (keeps_setup hent hcamera).moves (follows_start hent rfl rfl) ms
  have hstart : Settled (setup s clearDelay g) := rfl
  rw [List.nil_append, List.nil_append] at hkeeps
  rw [completed, hkeeps.dueBy_now (settled_moves hstart ms)]
  exact ⟨hkeeps, _, c, hfollows⟩

/-- The grab that a request begins. -/
def nextGrab (b : Bridge) : Due FrameOutcome := ⟨b.now + b.nextFrame.delay, b.nextFrame.outcome⟩

/-- What becomes of a request for a still image of the camera at a place that begins after some
moves, whether or not all else waits for its answer. -/
structure Answers (i : Nat) (start : Bridge) (ms : List Move) (e : Entity) (timeout : Option Nat) :
    Prop where
  /-- Waiting for the answer is letting the clock run. -/
  waits : (start.moves ms).fetch i e timeout =
    (((start.moves ms).ask i e timeout).1.runUntil ((start.moves ms).ask i e timeout).2.ends,
      ((start.moves ms).ask i e timeout).2.answer)
  /-- With the shutter closed no grab begins, and the last image is the answer. -/
  shut : (start.moves ms).shutterOpen e = false →
    (start.moves ms).ask i e timeout =
        (start.moves ms, ⟨(start.moves ms).now, .image ((start.moves ms).cachedImage? i)⟩) ∧
      ∀ m, m.toStep = .fetch i timeout → ∀ more, grabs i start (ms ++ m :: more) =
        grabs i start ms ++ grabs i ((start.moves ms).move m) more
  /-- With the shutter open one grab begins. -/
  begun : (start.moves ms).shutterOpen e = true →
    ((start.moves ms).ask i e timeout).1.grabber.calls =
        (start.moves ms).grabber.calls ++ [.grab ((start.moves ms).streamInput e)] ∧
      ∀ m, m.toStep = .fetch i timeout → ∀ more, grabs i start (ms ++ m :: more) =
        grabs i start ms ++ (start.moves ms).nextGrab :: grabs i ((start.moves ms).move m) more
  /-- Its caller gives up at the timeout, or gets what the grab comes to. -/
  answered : (start.moves ms).shutterOpen e = true →
    ((start.moves ms).ask i e timeout).2 =
      match timeout with
      | none => ⟨(start.moves ms).nextGrab.time, FrameOutcome.still (start.moves ms).nextGrab.task⟩
      | some wait =>
        if (start.moves ms).now + wait ≤ (start.moves ms).nextGrab.time then
          ⟨(start.moves ms).now + wait, .abandoned⟩
        else ⟨(start.moves ms).nextGrab.time, FrameOutcome.still (start.moves ms).nextGrab.task⟩
  /-- An image that it gets is that of its own grab, which is completed by then. -/
  own : (start.moves ms).shutterOpen e = true → ∀ image,
    ((start.moves ms).ask i e timeout).2.answer = .image image →
      image.isSome ∧ (start.moves ms).nextGrab.task.image? = image ∧
      ((start.moves ms).fetch i e timeout).1.cachedImage? i = image ∧
      ∀ m, m.toStep = .fetch i timeout → ∀ more,
        ((start.moves ms).ask i e timeout).2.ends ≤ (start.moves (ms ++ m :: more)).now →
          (start.moves ms).nextGrab ∈ completed i start (ms ++ m :: more)
  /-- What is seen of any entity is as without the request, now and later. -/
  unseen : ∀ j t, (start.moves ms).track j = some t → ∀ time,
    (((start.moves ms).ask i e timeout).1.runUntil time).track j =
        ((start.moves ms).runUntil time).track j ∧
      (((start.moves ms).ask i e timeout).1.runUntil time).pendingClears j =
        ((start.moves ms).runUntil time).pendingClears j

theorem begins_of_fetch {m : Move} {timeout : Option Nat} (hm : m.toStep = .fetch i timeout) :
    b.begins i m.toStep = b.grabOf i := by
  rw [hm]
  exact if_pos rfl

theorem request_of_open {e : Entity} (h : b.shutterOpen e = true) (timeout : Option Nat) :
    (b.ask i e timeout).2 =
      match timeout with
      | none => ⟨b.nextGrab.time, FrameOutcome.still b.nextGrab.task⟩
      | some wait =>
        if b.now + wait ≤ b.nextGrab.time then ⟨b.now + wait, .abandoned⟩
        else ⟨b.nextGrab.time, FrameOutcome.still b.nextGrab.task⟩ := by
  rw [ask, if_pos h]
  cases timeout with
  | none => rfl
  | some wait =>
    by_cases hwait : wait ≤ b.nextFrame.delay
    · have hle : b.now + wait ≤ b.nextGrab.time := Nat.add_le_add_left hwait b.now
      simp [hwait, hle, Frame.waited]
    · have hlt : ¬b.now + wait ≤ b.nextGrab.time := fun hle => hwait (Nat.le_of_add_le_add_left hle)
      have hmin : min wait b.nextFrame.delay = b.nextFrame.delay := by omega
      simp only [hlt, if_false, Frame.waited, Option.map_some, hmin, Option.any_some, hwait,
        decide_false]
      rfl

/-- A caller that gets an image has waited for its own grab, and gets what this comes to. -/
theorem own_of_image {e : Entity} {timeout : Option Nat} {image : Option Bytes}
    (h : b.shutterOpen e = true) (hanswer : (b.ask i e timeout).2.answer = .image image) :
    (b.ask i e timeout).2.ends = b.nextGrab.time ∧
      ∃ bytes, image = some bytes ∧ b.nextFrame.outcome = .image bytes := by
  have hstill : FrameOutcome.still b.nextFrame.outcome = .image image →
      ∃ bytes, image = some bytes ∧ b.nextFrame.outcome = .image bytes := by
    intro heq
    cases houtcome : b.nextFrame.outcome with
    | image bytes =>
      rw [houtcome] at heq
      exact ⟨bytes, (Still.image.inj heq).symm, rfl⟩
    | failed f => rw [houtcome] at heq; cases heq
    | crashed => rw [houtcome] at heq; cases heq
  rw [request_of_open h] at hanswer ⊢
  cases timeout with
  | none => exact ⟨rfl, hstill hanswer⟩
  | some wait =>
    simp only at hanswer ⊢
    split at hanswer
    · cases hanswer
    · next hlate =>
      rw [if_neg hlate]
      exact ⟨rfl, hstill hanswer⟩

/-- Where what was begun before is kept, a request is answered so. -/
theorem Keeps.answers {start : Bridge} {ms : List Move} {e : Entity}
    (h : Keeps i (grabs i start ms) (completed i start ms) (start.moves ms))
    (hsettled : Settled (start.moves ms)) (he : (start.moves ms).entities[i]? = some e)
    (timeout : Option Nat) : Answers i start ms e timeout := by
  have hgrabs : ∀ m : Move, m.toStep = .fetch i timeout → ∀ more,
      grabs i start (ms ++ m :: more) = grabs i start ms ++
        ((if (start.moves ms).shutterOpen e then [(start.moves ms).nextGrab] else []) ++
          grabs i ((start.moves ms).move m) more) := by
    intro m hm more
    rw [grabs_append, grabs, begins_of_fetch hm, grabOf_eq he]
    rfl
  have hbegun : (start.moves ms).shutterOpen e = true → ∀ m : Move, m.toStep = .fetch i timeout →
      ∀ more, grabs i start (ms ++ m :: more) =
        grabs i start ms ++
          (start.moves ms).nextGrab :: grabs i ((start.moves ms).move m) more := by
    intro hopen m hm more
    rw [hgrabs m hm, if_pos hopen]
    rfl
  constructor
  · exact fetch_eq_ask hsettled i e timeout
  · intro hshut
    refine ⟨by simp [Bridge.ask, hshut], fun m hm more => ?_⟩
    rw [hgrabs m hm, hshut]
    rfl
  · intro hopen
    refine ⟨?_, hbegun hopen⟩
    rw [Bridge.ask, if_pos hopen]
    rfl
  · exact fun hopen => request_of_open hopen timeout
  · intro hopen image hanswer
    obtain ⟨hends, bytes, rfl, houtcome⟩ := own_of_image hopen hanswer
    refine ⟨rfl, congrArg FrameOutcome.image? houtcome, ?_, fun m hm more hnow => ?_⟩
    · rw [fetch_eq_ask hsettled, hends, Bridge.ask, if_pos hopen]
      exact h.cachedImage?_completed e houtcome
    · refine Agenda.mem_dueBy (Agenda.sorted_inOrder _) (Agenda.mem_inOrder.mpr ?_) (hends ▸ hnow)
      rw [hbegun hopen m hm]
      exact List.mem_append_right _ List.mem_cons_self
  · exact fun j t ht time => track_ask h.timely ht i e timeout time

/-- An account with one camera, whose shutter is open. -/
def openCamera : Snapshot :=
  ⟨"token", [⟨1, 3, .off, [], [⟨"c1", "Porch", .camera, "online", true, true, true, true⟩]⟩]⟩

end

end

end AlarmBridge.Bridge
