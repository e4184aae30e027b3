import AlarmBridge.Proofs.Shutter
import AlarmBridge.Proofs.Stills

/-! Which image a camera has where grabs overtake each other.  Its last image never goes back in the
order in which grabs are completed; in the order in which they are begun it does, exactly where a
grab is completed after one that was begun later. -/

set_option autoImplicit false

namespace AlarmBridge

/-- In a list in order, the last value read is that of the last element that gives one. -/
theorem getLast?_filterMap_eq_some_iff {α β : Type} {R : α → α → Prop} {f : α → Option β}
    {l : List α} (hl : l.Pairwise R) (hasymm : ∀ x y, R x y → ¬R y x) {value : β} :
    (l.filterMap f).getLast? = some value ↔
      ∃ x ∈ l, f x = some value ∧ ∀ y ∈ l, (f y).isSome → y = x ∨ R y x := by
  -- from the end: what the last element gives stands, and if it gives nothing, what those before
  -- give
  induction l using List.reverseRecOn with
  | nil => simp
  | append_singleton l a ih =>
    obtain ⟨hl, -, hlast⟩ := List.pairwise_append.mp hl
    have hbefore : ∀ x ∈ l, R x a := fun x hx => hlast x hx a (List.mem_singleton_self a)
    rw [List.filterMap_append, List.getLast?_append]
    cases ha : f a with
    | none =>
      have hrest : ([a].filterMap f).getLast? = none := by simp [ha]
      rw [hrest, Option.none_or, ih hl]
      simp [ha, or_imp, forall_and, or_and_right, exists_or]
    | some last =>
      have hrest : ([a].filterMap f).getLast? = some last := by simp [ha]
      rw [hrest, Option.some_or]
      constructor
      · intro h
        refine ⟨a, by simp, ha.trans h, fun y hy _ => ?_⟩
        rcases List.mem_append.mp hy with hy | hy
        · exact .inr (hbefore y hy)
        · exact .inl (List.mem_singleton.mp hy)
      · rintro ⟨x, hx, hvalue, hall⟩
        rcases hall a (by simp) (by simp [ha]) with rfl | hlater
        · exact ha.symm.trans hvalue
        · rcases List.mem_append.mp hx with hx | hx
          · exact absurd hlater (hasymm x a (hbefore x hx))
          · rw [List.mem_singleton.mp hx, ha] at hvalue
            exact hvalue

namespace Bridge

/-- Of some grabs, numbered as they were begun, the one of a number has come to an image at a
time. -/
def Came (gs : List (Due FrameOutcome)) (now k time : Nat) (image : Bytes) : Prop :=
  gs[k]? = some ⟨time, .image image⟩ ∧ time ≤ now

/-- Of the grabs that have come to an image, the one completed last is that of a number: none has
come to one later, and at the same time none that was begun later. -/
structure Latest (gs : List (Due FrameOutcome)) (now k time : Nat) (image : Bytes) : Prop where
  came : Came gs now k time image
  last : ∀ j t other, Came gs now j t other → t < time ∨ t = time ∧ j ≤ k

section

variable {gs : List (Due FrameOutcome)} {now : Nat} {image : Bytes}

theorem mem_dueBy_numbered {x : Due (Nat × FrameOutcome)} :
    x ∈ (Agenda.inOrder (Agenda.numbered gs)).dueBy now ↔
      gs[x.task.1]? = some ⟨x.time, x.task.2⟩ ∧ x.time ≤ now := by
  rw [← Agenda.mem_numbered]
  constructor
  · intro hx
    have hmem : x ∈ Agenda.inOrder (Agenda.numbered gs) := (List.takeWhile_sublist _).subset hx
    exact ⟨Agenda.mem_inOrder.mp hmem, Agenda.time_le_of_mem_dueBy hx⟩
  · rintro ⟨hmem, htime⟩
    exact Agenda.mem_dueBy (Agenda.sorted_inOrder _) (Agenda.mem_inOrder.mpr hmem) htime

/-- The last image of the grabs completed by a time is that of the latest of them. -/
theorem getLast?_images_eq_some_iff :
    (images ((Agenda.inOrder gs).dueBy now)).getLast? = some image ↔
      ∃ k time, Latest gs now k time image := by
  -- two grabs may be alike, so the order of completion is told from their numbers
  have himages : images ((Agenda.inOrder gs).dueBy now) =
      ((Agenda.inOrder (Agenda.numbered gs)).dueBy now).filterMap (·.task.2.image?) := by
    conv_lhs => rw [← Agenda.numbered_map_snd gs, Agenda.inOrder_map, Agenda.dueBy_map]
    rw [images, List.filterMap_map]
    rfl
  have hpairwise : ((Agenda.inOrder (Agenda.numbered gs)).dueBy now).Pairwise Agenda.Earlier :=
    (Agenda.pairwise_inOrder_numbered gs).sublist (List.takeWhile_sublist _)
  have hasymm : ∀ x y : Due (Nat × FrameOutcome), Agenda.Earlier x y → ¬Agenda.Earlier y x := by
    unfold Agenda.Earlier
    omega
  rw [himages, getLast?_filterMap_eq_some_iff hpairwise hasymm]
  constructor
  · rintro ⟨x, hx, himage, hlast⟩
    obtain ⟨hget, htime⟩ := mem_dueBy_numbered.mp hx
    rw [FrameOutcome.image?_eq_some_iff.mp himage] at hget
    refine ⟨x.task.1, x.time, ⟨hget, htime⟩, fun j t other hother => ?_⟩
    have hy : ⟨t, j, .image other⟩ ∈ (Agenda.inOrder (Agenda.numbered gs)).dueBy now :=
      mem_dueBy_numbered.mpr hother
    rcases hlast _ hy rfl with heq | hearlier | hearlier
    · rw [← heq]
      exact .inr ⟨rfl, Nat.le_refl _⟩
    · exact .inl hearlier
    · exact .inr ⟨hearlier.1, Nat.le_of_lt hearlier.2⟩
  · rintro ⟨k, time, hcame, hlast⟩
    refine ⟨⟨time, k, .image image⟩, mem_dueBy_numbered.mpr hcame, rfl, fun y hy hsome => ?_⟩
    obtain ⟨t, j, outcome⟩ := y
    obtain ⟨other, hother⟩ := Option.isSome_iff_exists.mp hsome
    obtain rfl : outcome = .image other :=
      FrameOutcome.image?_eq_some_iff.mp hother
    have hgot := mem_dueBy_numbered.mp hy
    rcases hlast j t other hgot with hearlier | ⟨rfl, hle⟩
    · exact .inr (.inl hearlier)
    · rcases Nat.lt_or_eq_of_le hle with hlt | rfl
      · exact .inr (.inr ⟨rfl, hlt⟩)
      · have hsame : other = image := FrameOutcome.image.inj
          (congrArg Due.task (Option.some.inj (hgot.1.symm.trans hcame.1)))
        exact .inl (by rw [hsame])

/-- The latest grab was begun before another that has come to an image only if it came to one
later. -/
theorem Latest.time_lt {j k t time : Nat} {other : Bytes} (h : Latest gs now k time image)
    (hcame : Came gs now j t other) (hbegun : k < j) : t < time := by
  rcases h.last j t other hcame with hearlier | ⟨-, hle⟩
  · exact hearlier
  · omega

theorem Came.append {k time : Nat} (h : Came gs now k time image) (more : List (Due FrameOutcome))
    {later : Nat} (hlater : now ≤ later) : Came (gs ++ more) later k time image := by
  obtain ⟨hget, htime⟩ := h
  have hlt : k < gs.length := (List.getElem?_eq_some_iff.mp hget).1
  exact ⟨(List.getElem?_append_left hlt).trans hget, Nat.le_trans htime hlater⟩

end

section

variable {i : Nat} {b start : Bridge}

theorem now_le_moves (b : Bridge) (ms : List Move) : b.now ≤ (b.moves ms).now :=
  List.foldlRecOn (motive := fun b' => b.now ≤ b'.now) ms move (Nat.le_refl _)
    fun b' hb' m _ => Nat.le_trans hb' (now_le_move b' m)

theorem Keeps.cachedImage?_eq_some_iff {ms : List Move} {image : Bytes}
    (h : Keeps i (grabs i start ms) (completed i start ms) (start.moves ms)) :
    (start.moves ms).cachedImage? i = some image ↔
      ∃ k time, Latest (grabs i start ms) (start.moves ms).now k time image := by
  rw [h.image]
  exact getLast?_images_eq_some_iff

/-- Where an image that a caller gets comes from: the grab that its request began or, with the
shutter closed, the latest grab at that moment. -/
theorem Keeps.came_of_answer {before : List Move} {e : Entity} {timeout : Option Nat}
    {image : Bytes} {m : Move} {more : List Move}
    (h : Keeps i (grabs i start before) (completed i start before) (start.moves before))
    (he : (start.moves before).entities[i]? = some e) (hm : m.toStep = .fetch i timeout)
    (hanswer : ((start.moves before).ask i e timeout).2.answer = .image (some image))
    (hends : ((start.moves before).ask i e timeout).2.ends ≤
      (start.moves (before ++ m :: more)).now) :
    ∃ k time, Came (grabs i start (before ++ m :: more)) (start.moves (before ++ m :: more)).now
        k time image ∧
      if (start.moves before).shutterOpen e then k = (grabs i start before).length
      else Latest (grabs i start before) (start.moves before).now k time image := by
  have hgrabs := grabs_append i start before (m :: more)
  split
  · next hopen =>
    obtain ⟨hat, bytes, hbytes, houtcome⟩ := own_of_image hopen hanswer
    obtain rfl : image = bytes := Option.some.inj hbytes
    refine ⟨(grabs i start before).length, (start.moves before).nextGrab.time, ⟨?_, hat ▸ hends⟩,
      rfl⟩
    rw [hgrabs, grabs, begins_of_fetch hm, grabOf_eq he, if_pos hopen, houtcome]
    simp [nextGrab]
  · next hshut =>
    have hcached : (start.moves before).cachedImage? i = some image := by
      rw [Bridge.ask, if_neg hshut] at hanswer
      exact Still.image.inj hanswer
    obtain ⟨k, time, hlatest⟩ := h.cachedImage?_eq_some_iff.mp hcached
    refine ⟨k, time, ?_, hlatest⟩
    rw [hgrabs, moves_append]
    exact hlatest.came.append _ (now_le_moves _ _)

/-- Of every camera and all that happens, however many requests are under way: with the shutter
closed the last image is served, which is that of the latest grab.  A grab that was begun before
another replaces its image exactly if it comes to an image later; so what is served comes from a
grab begun before that of an image which a caller has got only if it was completed later than that
one. -/
theorem still_images_in_completion_order (s : Session) (clearDelay : Nat) (g : Grabber)
    {ent : Entity} (hent : (setup s clearDelay g).entities[i]? = some ent)
    (hcamera : ent.isCamera = true) (ms : List Move) :
    let start := setup s clearDelay g
    let b := start.moves ms
    let gs := grabs i start ms
    (∀ e timeout, b.shutterOpen e = false →
      (b.fetch i e timeout).2 = .image (b.cachedImage? i)) ∧
    (∀ image, b.cachedImage? i = some image ↔ ∃ k time, Latest gs b.now k time image) ∧
    (∀ j k t time older newer, j < k → Came gs b.now j t older → Came gs b.now k time newer →
      (Latest gs b.now j t older → time < t) ∧ (time < t → ¬Latest gs b.now k time newer)) ∧
    (∀ before m more e timeout image, ms = before ++ m :: more → m.toStep = .fetch i timeout →
      (start.moves before).entities[i]? = some e →
      ((start.moves before).ask i e timeout).2.answer = .image (some image) →
      ((start.moves before).ask i e timeout).2.ends ≤ b.now →
      ∃ k time, Came gs b.now k time image ∧
        (if (start.moves before).shutterOpen e then k = (grabs i start before).length
          else Latest (grabs i start before) (start.moves before).now k time image) ∧
        ∀ j t served, Latest gs b.now j t served → j < k → time < t) := by
  intro start b gs
  have hkeeps : ∀ ms, Keeps i (grabs i start ms) (completed i start ms) (start.moves ms) :=
    fun ms => (keeps_moves hent hcamera ms).1
  refine ⟨fun e timeout hshut => ?_, fun image => (hkeeps ms).cachedImage?_eq_some_iff,
    fun j k t time older newer hjk hold hnew =>
      ⟨fun h => h.time_lt hnew hjk, fun hlt hlatest => ?_⟩,
    ?_⟩
  · rw [fetch_of_shut hshut]
  · rcases hlatest.last j t older hold with hearlier | ⟨heq, -⟩ <;> omega
  · rintro before m more e timeout image rfl hm he hanswer hends
    obtain ⟨k, time, hcame, hfrom⟩ := (hkeeps before).came_of_answer he hm hanswer hends
    exact ⟨k, time, hcame, hfrom, fun j t served hlatest hjk => hlatest.time_lt hcame hjk⟩

/-- A request whose caller gives up, one that gets its image, and the shutter closed. -/
def overtaken : List Move :=
  [.step (.fetch 1 (some 5)), .step (.fetch 1 none), .step (.setState 1 .home)]

/-- A camera with a slow frame and a quick one to come. -/
def slowThenQuick : Bridge :=
  setup (.ofSnapshot "home" shyCamera) 30000 ⟨[⟨.image [1], 100⟩, ⟨.image [2], 20⟩], [], []⟩

/-- The image of the second grab is the last one until the first grab is completed. -/
theorem still_images_in_completion_order_overtaken :
    let gs : List Move → List (Due FrameOutcome) := grabs 1 slowThenQuick
    let later := overtaken ++ [.step (.advance 200)]
    (∃ k time, Latest (gs overtaken) (slowThenQuick.moves overtaken).now k time [2]) ∧
      (∃ k time, Latest (gs later) (slowThenQuick.moves later).now k time [1]) ∧
      ¬Latest (gs later) (slowThenQuick.moves later).now 1 25 [2] := by
  intro gs later
  obtain ⟨ent, hent⟩ : ∃ ent, slowThenQuick.entities[1]? = some ent := ⟨_, rfl⟩
  have hcamera : ent.isCamera = true := by
    have hany : slowThenQuick.entities[1]?.any (·.isCamera) = true := by decide +kernel
    simpa [hent] using hany
  have hordered := still_images_in_completion_order (.ofSnapshot "home" shyCamera) 30000
    ⟨[⟨.image [1], 100⟩, ⟨.image [2], 20⟩], [], []⟩ hent hcamera
  have hlater : Came (gs later) (slowThenQuick.moves later).now 0 100 [1] ∧
      Came (gs later) (slowThenQuick.moves later).now 1 25 [2] := by
    unfold Came
    decide +kernel
  refine ⟨((hordered overtaken).2.1 [2]).mp ?_, ((hordered later).2.1 [1]).mp ?_,
    ((hordered later).2.2.1 0 1 100 25 [1] [2] (by decide) hlater.1 hlater.2).2 (by decide)⟩
  · show (slowThenQuick.moves overtaken).cachedImage? 1 = some [2]
    decide +kernel
  · show (slowThenQuick.moves later).cachedImage? 1 = some [1]
    decide +kernel

/-- A grab that was begun first but completed last replaces the image that a caller has got. -/
theorem older_grab_replaces_newer :
    let b := slowThenQuick.moves overtaken
    let later := slowThenQuick.moves (overtaken ++ [.step (.advance 200)])
    grabs 1 slowThenQuick overtaken = [⟨100, .image [1]⟩, ⟨25, .image [2]⟩] ∧
      (slowThenQuick.moves (overtaken.take 1)).entities[1]?.any (fun e =>
        ((slowThenQuick.moves (overtaken.take 1)).fetch 1 e none).2 = .image (some [2])) = true ∧
      b.entities[1]?.any (fun e => !b.shutterOpen e && (b.fetch 1 e none).2 = .image (some [2])) =
        true ∧
      later.entities[1]?.any (fun e =>
        !later.shutterOpen e && (later.fetch 1 e none).2 = .image (some [1])) = true := by
  decide +kernel

end

end Bridge

end AlarmBridge
