import AlarmBridge.Proofs.Bridge.Heard

/-! The frames to come for a camera and its last image.  Nothing but asking for a still image adds
to the former, and nothing but a frame that comes changes the latter.  A bridge `Keeps` some grabs
for a camera if those that are not due yet are the frames to come, and the last image is that of the
last of the others that came to one. -/

set_option autoImplicit false

namespace AlarmBridge

/-- The image that taking a frame comes to, if it does. -/
def FrameOutcome.image? : FrameOutcome → Option Bytes
  | .image b => some b
  | _ => none

theorem FrameOutcome.image?_eq_some_iff {outcome : FrameOutcome} {image : Bytes} :
    outcome.image? = some image ↔ outcome = .image image := by
  cases outcome <;> simp [image?]

namespace Bridge

/-- The frame that a task brings the camera at a place, if it does. -/
def frame? (i : Nat) (d : Due Task) : Option (Due FrameOutcome) :=
  match d.task with
  | .frame j outcome => if j = i then some ⟨d.time, outcome⟩ else none
  | .clear _ => none

/-- The frames that an agenda has for the camera at a place. -/
def framesOf (i : Nat) (a : Agenda Task) : Agenda FrameOutcome := a.filterMap (frame? i)

/-- The images that some frames come to. -/
def images (frames : List (Due FrameOutcome)) : List Bytes := frames.filterMap (·.task.image?)

section

variable {i : Nat}

theorem time_of_frame? {d : Due Task} {x : Due FrameOutcome} (h : frame? i d = some x) :
    x.time = d.time := by
  unfold frame? at h
  split at h
  · split at h
    · rw [← Option.some.inj h]
    · cases h
  · cases h

theorem time_of_mem_framesOf {a : Agenda Task} {x : Due FrameOutcome} (hx : x ∈ framesOf i a) :
    ∃ d ∈ a, d.time = x.time := by
  obtain ⟨d, hd, hframe⟩ := List.mem_filterMap.mp hx
  exact ⟨d, hd, (time_of_frame? hframe).symm⟩

/-- A frame is planned among the frames of its camera as it is among all that is due. -/
theorem framesOf_plan {a : Agenda Task} (h : a.Sorted) (time : Nat) (outcome : FrameOutcome) :
    framesOf i (a.plan time (.frame i outcome)) = (framesOf i a).plan time outcome := by
  induction a with
  | nil => simp [Agenda.plan, framesOf, frame?]
  | cons d a ih =>
    obtain ⟨hd, ha⟩ := Agenda.sorted_cons.mp h
    rw [Agenda.plan]
    split
    · next hle =>
      have hrest := ih ha
      unfold framesOf at hrest ⊢
      rw [List.filterMap_cons, List.filterMap_cons, hrest]
      cases hframe : frame? i d with
      | none => rfl
      | some x =>
        have hx : x.time = d.time := time_of_frame? hframe
        simp only [Agenda.plan, hx, hle, if_true]
    · next hgt =>
      -- all frames here are due after the new one
      have hlater : ∀ x ∈ framesOf i (d :: a), time < x.time := by
        intro x hx
        obtain ⟨y, hy, hyx⟩ := time_of_mem_framesOf hx
        rcases List.mem_cons.mp hy with rfl | hy
        · omega
        · have := hd y hy
          omega
      have hnew : frame? i ⟨time, .frame i outcome⟩ = some ⟨time, outcome⟩ := if_pos rfl
      rw [Agenda.plan_of_lt outcome hlater, framesOf, List.filterMap_cons, hnew]
      rfl

theorem framesOf_dueBy {a : Agenda Task} (h : a.Sorted) (time : Nat) :
    (framesOf i a).dueBy time = framesOf i (a.dueBy time) :=
  (Agenda.filterMap_dueBy_after Due.time (fun _ _ => time_of_frame?) h time).1.symm

/-- What the last image of the camera at a place depends on: what drives the entity there, and the
frames to come for it. -/
def picture (b : Bridge) (i : Nat) : Option Role × Agenda FrameOutcome :=
  (b.entities[i]?.map (·.role), framesOf i b.agenda)

variable {b b' : Bridge}

theorem cachedImage?_congr (h : b'.picture i = b.picture i) :
    b'.cachedImage? i = b.cachedImage? i := by
  have himage : ∀ b : Bridge, b.cachedImage? i = (b.picture i).1.bind fun role =>
      (Entity.mk default role default).image? := by
    intro b
    unfold cachedImage? picture
    cases b.entities[i]? <;> rfl
  rw [himage, himage, h]

theorem picture_announce (b : Bridge) (j : Nat) : (b.announce j).picture i = b.picture i := by
  have hagenda : (b.announce j).agenda = b.agenda := (congrArg Bridge.agenda (bare_announce b j) :)
  rw [picture, picture, entities_announce, hagenda]

theorem picture_modify (b : Bridge) (j : Nat) {f : Entity → Entity}
    (hf : ∀ e, (f e).role = e.role) :
    (b.modify j f).picture i = b.picture i := by
  have hrole : (b.entities.modify j f)[i]?.map (·.role) = b.entities[i]?.map (·.role) := by
    rw [List.getElem?_modify]
    split <;> cases b.entities[i]? <;> simp [hf]
  rw [picture, modify, hrole, picture]

theorem picture_write (b : Bridge) (j : Nat) (value : Bool) :
    (b.write j value).picture i = b.picture i :=
  (picture_announce _ j).trans (picture_modify b j fun _ => rfl)

theorem picture_foldl {α : Type} {f : Bridge → α → Bridge}
    (hf : ∀ b x, (f b x).picture i = b.picture i) (b : Bridge) (xs : List α) :
    (xs.foldl f b).picture i = b.picture i :=
  List.foldlRecOn (motive := fun b' => b'.picture i = b.picture i) xs f rfl
    fun b' hb' x _ => (hf b' x).trans hb'

theorem picture_refresh (b : Bridge) : b.refresh.picture i = b.picture i := by
  refine picture_foldl (fun b j => ?_) b _
  unfold refreshEntity
  split
  · rfl
  · exact picture_write b j _

theorem picture_trigger (b : Bridge) (j : Nat) : (b.trigger j).picture i = b.picture i := by
  have hwrite := picture_write (i := i) b j true
  simp only [trigger]
  split
  · exact hwrite
  · rw [← hwrite]
    exact congrArg (Prod.mk _) (Agenda.filterMap_plan_of_none rfl _)

theorem picture_deliver (e : PushEvent) (b : Bridge) (j : Nat) :
    (deliver e b j).picture i = b.picture i := by
  unfold deliver
  split
  · rfl
  · split
    · exact picture_trigger _ j
    · rfl

theorem picture_dispatch (b : Bridge) (e : PushEvent) :
    (b.dispatch e).1.picture i = b.picture i := by
  obtain ⟨records, h⟩ := dispatch_eq b e
  rw [h]
  exact picture_foldl (picture_deliver e) b (b.served e)

theorem cachedImage?_keepImage (hcamera : b.entities[i]?.any (·.isCamera) = true) (image : Bytes) :
    (b.modify i (·.keepImage image)).cachedImage? i = some image := by
  obtain ⟨ent, hent⟩ : ∃ ent, b.entities[i]? = some ent := by
    cases hent : b.entities[i]? with
    | none => simp [hent] at hcamera
    | some ent => exact ⟨ent, rfl⟩
  have hkept : (ent.keepImage image).image? = some image := by
    rw [hent, Option.any_some] at hcamera
    obtain ⟨info, role, cell⟩ := ent
    cases role with
    | camera old => rfl
    | polled flag => cases hcamera
    | momentary kind => cases hcamera
  rw [cachedImage?, modify, List.getElem?_modify_eq, hent]
  exact hkept

/-- A due thing changes the last image of a camera exactly if it is a frame that comes to one. -/
theorem cachedImage?_performDue (hcamera : b.entities[i]?.any (·.isCamera) = true) (d : Due Task) :
    (b.performDue d).cachedImage? i =
      ((frame? i d).bind (·.task.image?)).or (b.cachedImage? i) := by
  let b1 : Bridge := { b with now := max b.now d.time, agenda := b.agenda.tail }
  show (b1.perform d.task).cachedImage? i = _
  cases htask : d.task with
  | clear j =>
    have hnone : frame? i d = none := by rw [frame?, htask]
    have hperform : (b1.perform (.clear j)).cachedImage? i = b1.cachedImage? i := by
      refine cachedImage?_congr ?_
      simp only [perform]
      split <;> exact picture_write b1 j false
    rw [hnone]
    exact hperform
  | frame j outcome =>
    by_cases hj : j = i
    · subst hj
      have hsome : frame? j d = some ⟨d.time, outcome⟩ := by simp [frame?, htask]
      rw [hsome]
      cases outcome with
      | image image => exact cachedImage?_keepImage (b := b1) hcamera image
      | failed f => rfl
      | crashed => rfl
    · have hnone : frame? i d = none := by simp [frame?, htask, hj]
      rw [hnone]
      cases outcome with
      | image image =>
        exact congrArg (Option.bind · Entity.image?) (List.getElem?_modify_ne _ b.entities hj)
      | failed f => rfl
      | crashed => rfl

theorem any_isCamera_bare (b : Bridge) :
    b.bare.entities[i]?.any (·.isCamera) = b.entities[i]?.any (·.isCamera) := by
  rw [getElem?_bare]
  cases b.entities[i]? with
  | none => rfl
  | some e => exact e.isCamera_bare

theorem cachedImage?_foldl_performDue (hcamera : b.entities[i]?.any (·.isCamera) = true)
    (due : List (Due Task)) :
    (due.foldl performDue b).cachedImage? i =
      (images (framesOf i due)).getLast?.or (b.cachedImage? i) := by
  -- what is done first must leave a camera there, so the bridge is general in the induction
  induction due generalizing b with
  | nil => rfl
  | cons d due ih =>
    have hidentities : (b.performDue d).bare.entities = b.bare.entities :=
      (congrArg Bridge.entities (bare_performDue b d) :)
    have hstill : (b.performDue d).entities[i]?.any (·.isCamera) = true := by
      rw [← any_isCamera_bare, hidentities, any_isCamera_bare, hcamera]
    rw [List.foldl_cons, ih hstill, cachedImage?_performDue hcamera d]
    unfold images framesOf
    cases hframe : frame? i d with
    | none => simp [hframe]
    | some x =>
      cases himage : x.task.image? with
      | none => simp [hframe, himage]
      | some image => simp [hframe, himage, List.getLast?_cons]

/-- Of the grabs begun for the camera at a place, `done` have been completed, in this order, and the
others are the frames to come; the last image is that of the last completed that came to one. -/
structure Keeps (i : Nat) (grabs done : List (Due FrameOutcome)) (b : Bridge) : Prop where
  timely : Timely b
  camera : b.entities[i]?.any (·.isCamera) = true
  order : Agenda.inOrder grabs = done ++ framesOf i b.agenda
  past : ∀ d ∈ done, d.time ≤ b.now
  image : b.cachedImage? i = (images done).getLast?

/-- From one bridge to another further grabs are completed, and what is kept is kept. -/
def KeepsOn (i : Nat) (grabs done : List (Due FrameOutcome)) (before after : Bridge) : Prop :=
  ∃ fresh, (∀ d ∈ fresh, before.now ≤ d.time) ∧ Keeps i grabs (done ++ fresh) after

variable {grabs grabs' done : List (Due FrameOutcome)}

theorem Keeps.here {b0 : Bridge} (h : Keeps i grabs done b) : KeepsOn i grabs done b0 b :=
  ⟨[], nofun, by rwa [List.append_nil]⟩

theorem KeepsOn.trans {b1 b2 b3 : Bridge} (h : KeepsOn i grabs done b1 b2) (hnow : b1.now ≤ b2.now)
    (hnext : ∀ {done}, Keeps i grabs done b2 → KeepsOn i grabs' done b2 b3) :
    KeepsOn i grabs' done b1 b3 := by
  obtain ⟨fresh, hfresh, hkeeps⟩ := h
  obtain ⟨more, hmore, hafter⟩ := hnext hkeeps
  refine ⟨fresh ++ more, fun d hd => ?_, by rwa [← List.append_assoc]⟩
  rcases List.mem_append.mp hd with hd | hd
  · exact hfresh d hd
  · exact Nat.le_trans hnow (hmore d hd)

theorem Keeps.congr (h : Keeps i grabs done b) (htimely : Timely b')
    (hidentities : b'.bare.entities = b.bare.entities) (hpicture : b'.picture i = b.picture i)
    (hnow : b.now ≤ b'.now) : Keeps i grabs done b' where
  timely := htimely
  camera := by
    rw [← any_isCamera_bare, hidentities, any_isCamera_bare]
    exact h.camera
  order := by
    have hframes : framesOf i b'.agenda = framesOf i b.agenda := congrArg Prod.snd hpicture
    rw [hframes, h.order]
  past := fun d hd => Nat.le_trans (h.past d hd) hnow
  image := (cachedImage?_congr hpicture).trans h.image

/-- As the clock runs, the frames that are due come, and the last of them to come to an image is
kept. -/
theorem Keeps.runUntil_dueBy (h : Keeps i grabs done b) (time : Nat) :
    Keeps i grabs (done ++ framesOf i (b.agenda.dueBy time)) (b.runUntil time) where
  timely := h.timely.runUntil time
  camera := by
    rw [← any_isCamera_bare, (steady_runUntil b time).identities, any_isCamera_bare]
    exact h.camera
  order := by
    have hagenda : (b.runUntil time).agenda = b.agenda.after time :=
      (congrArg Bridge.agenda (bare_runUntil b time) :)
    have hsplit : framesOf i b.agenda =
        framesOf i (b.agenda.dueBy time) ++ framesOf i (b.agenda.after time) := by
      rw [framesOf, framesOf, framesOf, ← List.filterMap_append, Agenda.dueBy_append_after]
    rw [hagenda, h.order, hsplit, List.append_assoc]
  past := by
    intro d hd
    rw [now_runUntil]
    rcases List.mem_append.mp hd with hd | hd
    · have := h.past d hd
      omega
    · obtain ⟨x, hx, htime⟩ := time_of_mem_framesOf hd
      have := Agenda.time_le_of_mem_dueBy hx
      omega
  image := by
    have hfold := cachedImage?_foldl_performDue h.camera (b.agenda.dueBy time)
    have himages : images (done ++ framesOf i (b.agenda.dueBy time)) =
        images done ++ images (framesOf i (b.agenda.dueBy time)) := List.filterMap_append
    rw [himages, List.getLast?_append, ← h.image]
    exact hfold

theorem Keeps.runUntil (h : Keeps i grabs done b) (time : Nat) :
    KeepsOn i grabs done b (b.runUntil time) := by
  refine ⟨_, fun d hd => ?_, h.runUntil_dueBy time⟩
  obtain ⟨x, hx, htime⟩ := time_of_mem_framesOf hd
  have hpending := h.timely.pending x ((List.takeWhile_sublist _).subset hx)
  omega

theorem Keeps.timely_grabbing (h : Keeps i grabs done b) (j : Nat) (e : Entity) :
    Timely (b.grabbing j e) :=
  h.timely.plan rfl rfl rfl (Nat.le_add_right _ _) nofun

theorem Keeps.grabbing (h : Keeps i grabs done b) (e : Entity) :
    Keeps i (grabs ++ [⟨b.now + b.nextFrame.delay, b.nextFrame.outcome⟩]) done
      (b.grabbing i e) where
  timely := h.timely_grabbing i e
  camera := h.camera
  order := by
    have hframes : framesOf i (b.grabbing i e).agenda =
        (framesOf i b.agenda).plan (b.now + b.nextFrame.delay) b.nextFrame.outcome :=
      framesOf_plan h.timely.sorted _ _
    rw [Agenda.inOrder_append_singleton, h.order, hframes]
    exact Agenda.plan_append _ fun d hd => Nat.le_trans (h.past d hd) (Nat.le_add_right _ _)
  past := h.past
  image := h.image

theorem Keeps.grabbing_of_ne (h : Keeps i grabs done b) {j : Nat} (hj : j ≠ i) (e : Entity) :
    Keeps i grabs done (b.grabbing j e) := by
  have hnone : frame? i ⟨b.now + b.nextFrame.delay, .frame j b.nextFrame.outcome⟩ = none :=
    if_neg hj
  refine h.congr (h.timely_grabbing j e) rfl ?_ (Nat.le_refl _)
  exact congrArg (Prod.mk _) (Agenda.filterMap_plan_of_none hnone _)

/-- The grab that asking for a still image of the camera at a place begins, if its shutter is
open. -/
def grabOf (b : Bridge) (i : Nat) : List (Due FrameOutcome) :=
  if b.entities[i]?.any b.shutterOpen then [⟨b.now + b.nextFrame.delay, b.nextFrame.outcome⟩]
  else []

/-- The grabs that a step begins for the camera at a place. -/
def begins (b : Bridge) (i : Nat) : Step → List (Due FrameOutcome)
  | .fetch j _ => if j = i then b.grabOf i else []
  | _ => []

theorem grabOf_eq {e : Entity} (hent : b.entities[i]? = some e) : b.grabOf i =
    if b.shutterOpen e then [⟨b.now + b.nextFrame.delay, b.nextFrame.outcome⟩] else [] := by
  rw [grabOf, hent]
  rfl

theorem Keeps.ask (h : Keeps i grabs done b) {j : Nat} {e : Entity} (hent : b.entities[j]? = some e)
    (timeout : Option Nat) :
    Keeps i (grabs ++ b.begins i (.fetch j timeout)) done (b.ask j e timeout).1 := by
  have hshut : b.shutterOpen e = false → b.grabOf j = [] := fun hshutter => by
    rw [grabOf_eq hent, hshutter]
    rfl
  have hbegins : b.begins i (.fetch j timeout) = if j = i then b.grabOf i else [] := rfl
  unfold Bridge.ask
  rw [hbegins]
  by_cases hj : j = i
  · subst hj
    rw [if_pos rfl]
    cases hshutter : b.shutterOpen e with
    | false =>
      rw [hshut hshutter, List.append_nil]
      exact h
    | true =>
      rw [grabOf_eq hent, hshutter]
      exact h.grabbing e
  · rw [if_neg hj, List.append_nil]
    split
    · exact h.grabbing_of_ne hj e
    · exact h

theorem Keeps.fetch (h : Keeps i grabs done b) {j : Nat} {e : Entity}
    (hent : b.entities[j]? = some e) (timeout : Option Nat) :
    KeepsOn i (grabs ++ b.begins i (.fetch j timeout)) done b (b.fetch j e timeout).1 := by
  have hask := h.ask hent timeout
  unfold Bridge.ask at hask
  split at hask
  · next hshutter =>
    rw [fetch_of_open hshutter]
    exact hask.runUntil _
  · next hshutter =>
    rw [fetch_of_shut (Bool.eq_false_iff.mpr hshutter)]
    exact hask.here

theorem Keeps.runBefore (h : Keeps i grabs done b) {time : Nat}
    (htimely : Timely (b.runBefore time)) : KeepsOn i grabs done b (b.runBefore time) := by
  rw [runBefore_eq] at htimely ⊢
  by_cases htime : time = 0
  · rw [if_pos htime] at htimely ⊢
    exact (h.congr htimely rfl rfl (Nat.le_max_left _ _)).here
  · rw [if_neg htime] at htimely ⊢
    obtain ⟨fresh, hfresh, hrun⟩ := h.runUntil (time - 1)
    have hnow : (b.runUntil (time - 1)).now ≤ max b.now time := by
      rw [now_runUntil]
      omega
    exact ⟨fresh, hfresh, hrun.congr htimely rfl rfl hnow⟩

theorem Keeps.stream {t₀ : Track} {c : Course} (h : Keeps i grabs done b)
    (hfollows : Follows t₀ i c b) (e : Entity) (w : Writer) (timeout : Option Nat) :
    KeepsOn i grabs done b (b.stream e w timeout).1 := by
  have hopening : Keeps i grabs done (b.opening e) :=
    h.congr (h.timely.congr rfl rfl rfl) rfl rfl (Nat.le_refl _)
  cases hoffer : b.nextStream with
  | error f =>
    rw [stream_of_error hoffer]
    exact hopening.here
  | ok process =>
    rw [stream_of_ok hoffer]
    let run := process.serve e.info.uniqueId (timeout.map (b.now + ·)) b.now w
    have hfollows : Follows t₀ i c (b.opening e) := hfollows.congr rfl rfl rfl rfl
    have htimely : Timely ((b.opening e).runBefore run.time) := (hfollows.runBefore run.time).timely
    have hbefore : KeepsOn i grabs done b ((b.opening e).runBefore run.time) :=
      hopening.runBefore htimely
    refine hbefore.trans (steady_runBefore (b.opening e) run.time).now fun {done'} hdone => ?_
    have hreleased : Keeps i grabs done' { ((b.opening e).runBefore run.time).note run.log with
        grabber := ((b.opening e).runBefore run.time).grabber.noteReleases run.releases } :=
      hdone.congr (htimely.congr rfl rfl rfl) rfl rfl (Nat.le_refl _)
    exact hreleased.runUntil run.time

/-- A step begins the grabs that it says, and keeps these with those before. -/
theorem Keeps.act {t₀ : Track} {c : Course} (h : Keeps i grabs done b)
    (hfollows : Follows t₀ i c b) (s : Step) :
    KeepsOn i (grabs ++ b.begins i s) done b (b.act s).1 := by
  obtain ⟨ent, hent⟩ : ∃ ent, b.entities[i]? = some ent :=
    ⟨_, List.getElem?_eq_getElem hfollows.lt_length⟩
  obtain ⟨c', hact, -⟩ := hfollows.act_step hent s
  -- what neither lets time pass nor asks for an image leaves the picture as it is
  have hquiet : (b.act s).1.picture i = b.picture i →
      KeepsOn i (grabs ++ []) done b (b.act s).1 := by
    intro hpicture
    rw [List.append_nil]
    exact (h.congr hact.timely (steady_act b s).identities hpicture (steady_act b s).now).here
  cases s with
  | publishAll => exact hquiet (picture_foldl picture_announce b _)
  | refresh => exact hquiet (picture_refresh b)
  | poll text =>
    refine hquiet ?_
    simp only [Bridge.act]
    split
    · exact picture_refresh _
    · rfl
  | push text =>
    refine hquiet ?_
    simp only [Bridge.act]
    split
    · exact picture_dispatch b _
    · rfl
  | dispatch e => exact hquiet (picture_dispatch b e)
  | deliver j e => exact hquiet (picture_deliver e b j)
  | advance ms =>
    show KeepsOn i (grabs ++ []) done b _
    rw [List.append_nil]
    exact h.runUntil _
  | fetch j timeout =>
    simp only [Bridge.act]
    cases hj : b.entities[j]? with
    | none =>
      have hne : j ≠ i := by
        rintro rfl
        rw [hent] at hj
        cases hj
      have hnone : b.begins i (.fetch j timeout) = [] := if_neg hne
      rw [hnone, List.append_nil]
      exact h.here
    | some e => exact h.fetch hj timeout
  | stream j w timeout =>
    show KeepsOn i (grabs ++ []) done b _
    rw [List.append_nil]
    simp only [Bridge.act]
    split
    · exact h.here
    · exact h.stream hfollows _ w timeout
  | _ => exact hquiet rfl

end

end Bridge

end AlarmBridge
