import AlarmBridge.Proofs.Bridge.Timely
import AlarmBridge.Proofs.Course

/-! One entity of a bridge and its course.  A bridge `Follows` a course if the entity's
announcements and state are those that the acts of the course leave, and its pending clears are
those of the course.  Every operation of the bridge takes the course further by what the entity is
told, and by the time that passes. -/

set_option autoImplicit false

namespace AlarmBridge

/-- Whether an entity is turned on by events. -/
def Entity.isMomentary (e : Entity) : Bool :=
  match e.role with
  | .momentary _ => true
  | _ => false

@[simp] theorem Entity.isMomentary_bare (e : Entity) : e.bare.isMomentary = e.isMomentary := by
  obtain ⟨info, role, cell⟩ := e
  cases role <;> rfl

theorem Entity.reading?_of_isMomentary {e : Entity} (h : e.isMomentary = true) (s : Session) :
    e.reading? s = none := by
  obtain ⟨info, role, cell⟩ := e
  cases role <;> simp_all [Entity.isMomentary, Entity.reading?]

theorem Entity.isMomentary_of_receives {e : Entity} {event : PushEvent}
    (h : e.receives event = true) : e.isMomentary = true := by
  obtain ⟨info, role, cell⟩ := e
  cases role <;> simp_all [receives, subscribed, isMomentary]

namespace Bridge

/-- The announcements received from an entity. -/
def sentBy (b : Bridge) (i : Nat) : List StateChange :=
  (b.outbox.filter (·.source = i)).map (·.change)

/-- What is seen of an entity. -/
def track (b : Bridge) (i : Nat) : Option Track :=
  b.entities[i]?.map fun e => ⟨e.cell, b.listening, b.sentBy i⟩

theorem track_congr {b b' : Bridge} {i : Nat} (hentity : b'.entities[i]? = b.entities[i]?)
    (hlistening : b'.listening = b.listening) (hsent : b'.sentBy i = b.sentBy i) :
    b'.track i = b.track i := by
  simp [track, hentity, hlistening, hsent]

theorem entities_announce (b : Bridge) (i : Nat) : (b.announce i).entities = b.entities := by
  unfold announce
  split
  · rfl
  · split <;> rfl

theorem track_announce (b : Bridge) (i : Nat) :
    (b.announce i).track i = (b.track i).map (·.announce b.now) := by
  cases he : b.entities[i]? with
  | none => simp [announce, track, he]
  | some e =>
    cases hc : e.cell.change? (.ofMillis b.now) with
    | none => simp [announce, track, he, hc, Track.announce]
    | some change =>
      by_cases hl : b.listening = true
      · simp [announce, track, he, hc, hl, Track.announce, sentBy]
      · simp [announce, track, he, hc, hl, Track.announce, sentBy, note]

theorem track_announce_of_ne (b : Bridge) {i j : Nat} (h : j ≠ i) :
    (b.announce j).track i = b.track i := by
  have hlistening := congrArg Bridge.listening (bare_announce b j)
  refine track_congr (by rw [entities_announce]) hlistening ?_
  unfold announce
  split
  · rfl
  · split
    · simp [sentBy, h]
    · rfl

theorem track_modify (b : Bridge) (i : Nat) (f : Entity → Entity) :
    (b.modify i f).track i = b.entities[i]?.map fun e => ⟨(f e).cell, b.listening, b.sentBy i⟩ := by
  rw [track, modify, List.getElem?_modify_eq, Option.map_eq_map, Option.map_map]
  rfl

theorem track_modify_of_ne (b : Bridge) {i j : Nat} (h : j ≠ i) (f : Entity → Entity) :
    (b.modify j f).track i = b.track i :=
  track_congr (List.getElem?_modify_ne f _ h) rfl rfl

/-- The entity `i` of a bridge that is on time is where the course `c` leads from `t₀`. -/
structure Follows (t₀ : Track) (i : Nat) (c : Course) (b : Bridge) : Prop where
  timely : Timely b
  track : b.track i = some (t₀.replay c.acts)
  clears : b.clears i = c.clears

section

variable {t₀ : Track} {i : Nat} {c : Course} {b : Bridge}

/-- At the start nothing has been done to an entity. -/
theorem follows_start {ent : Entity} (hent : b.entities[i]? = some ent) (hagenda : b.agenda = [])
    (houtbox : b.outbox = []) : Follows ⟨ent.cell, b.listening, []⟩ i Course.start b where
  timely := by
    refine ⟨hagenda ▸ .nil, by simp [hagenda], fun j t ht => ?_⟩
    rw [clears, hagenda] at ht
    simp [clearsOf] at ht
  track := by simp [Bridge.track, hent, sentBy, houtbox, Course.start]
  clears := by rw [clears, hagenda]; rfl

/-- An entity follows a course from its present state. -/
theorem follows_self {t : Track} (hb : Timely b) (ht : b.track i = some t) :
    Follows t i ⟨b.clears i, []⟩ b := ⟨hb, ht, rfl⟩

theorem Follows.pending (h : Follows t₀ i c b) : b.pendingClears i = c.clears.length := by
  rw [pendingClears_eq, h.clears]

theorem Follows.congr {b' : Bridge} (h : Follows t₀ i c b) (htrack : b'.track i = b.track i)
    (hagenda : b'.agenda = b.agenda) (hnow : b'.now = b.now)
    (hdelay : b'.clearDelay = b.clearDelay) : Follows t₀ i c b' where
  timely := h.timely.congr hagenda hnow hdelay
  track := htrack.trans h.track
  clears := (congrArg (clearsOf i) hagenda).trans h.clears

theorem Follows.of_bare {b' : Bridge} (h : Follows t₀ i c b) (htrack : b'.track i = b.track i)
    (hbare : b'.bare = b.bare) : Follows t₀ i c b' :=
  h.congr htrack (congrArg Bridge.agenda hbare :) (congrArg Bridge.now hbare :)
    (congrArg Bridge.clearDelay hbare :)

/-- An operation that does one thing to the entity adds it to the course. -/
theorem Follows.act {b' : Bridge} {a : Act} (h : Follows t₀ i c b)
    (htrack : b'.track i = (b.track i).map (·.act (b.now, a))) (hagenda : b'.agenda = b.agenda)
    (hnow : b'.now = b.now) (hdelay : b'.clearDelay = b.clearDelay) :
    Follows t₀ i (c.act b.now a) b' where
  timely := h.timely.congr hagenda hnow hdelay
  track := by simp [htrack, h.track, Course.act]
  clears := (congrArg (clearsOf i) hagenda).trans h.clears

theorem Follows.announce (h : Follows t₀ i c b) :
    Follows t₀ i (c.act b.now .publish) (b.announce i) :=
  have hbare := bare_announce b i
  h.act (track_announce b i) (congrArg Bridge.agenda hbare :) (congrArg Bridge.now hbare :)
    (congrArg Bridge.clearDelay hbare :)

theorem Follows.announce_of_ne {j : Nat} (h : Follows t₀ i c b) (hj : j ≠ i) :
    Follows t₀ i c (b.announce j) :=
  h.of_bare (track_announce_of_ne b hj) (bare_announce b j)

theorem Follows.write (h : Follows t₀ i c b) (value : Bool) :
    Follows t₀ i (c.act b.now (.write value)) (b.write i value) := by
  have hbare := bare_write b i value
  refine h.act ?_ (congrArg Bridge.agenda hbare :) (congrArg Bridge.now hbare :)
    (congrArg Bridge.clearDelay hbare :)
  rw [Bridge.write, track_announce, track_modify, Bridge.track, Option.map_map, Option.map_map]
  rfl

theorem Follows.write_of_ne {j : Nat} (h : Follows t₀ i c b) (hj : j ≠ i) (value : Bool) :
    Follows t₀ i c (b.write j value) :=
  h.of_bare ((track_announce_of_ne _ hj).trans (track_modify_of_ne b hj _)) (bare_write b j value)

theorem Follows.keepImage (h : Follows t₀ i c b) (j : Nat) (image : Bytes) :
    Follows t₀ i c (b.modify j (·.keepImage image)) := by
  refine h.of_bare ?_ (bare_modify b j fun e => e.bare_keepImage image)
  by_cases hj : j = i
  · subst hj
    rw [track_modify, Bridge.track]
    congr 1
    funext e
    obtain ⟨info, role, cell⟩ := e
    cases role <;> rfl
  · exact track_modify_of_ne b hj _

/-- A thing due at its time is done: a clear of the entity turns it off, all else passes it by. -/
theorem Follows.performDue {d : Due Task} {a : Agenda Task} (h : Follows t₀ i c b)
    (hagenda : b.agenda = d :: a) :
    Follows t₀ i ⟨clearsOf i a, c.acts ++ (clearsOf i [d]).map fun due => (due, .write false)⟩
      (b.performDue d) := by
  obtain ⟨hfirst, hsorted⟩ := Agenda.sorted_cons.mp (hagenda ▸ h.timely.sorted)
  have hnow : max b.now d.time = d.time :=
    Nat.max_eq_right (h.timely.pending d (by simp [hagenda]))
  let b1 : Bridge := { b with now := d.time, agenda := a }
  have h1 : Follows t₀ i ⟨clearsOf i a, c.acts⟩ b1 := by
    refine ⟨⟨hsorted, hfirst, fun j t ht => ?_⟩, h.track, rfl⟩
    have hmem : t ∈ b.clears j := by
      rw [Bridge.clears, hagenda]
      obtain ⟨x, hx, hclear⟩ := mem_clearsOf.mp ht
      exact mem_clearsOf.mpr ⟨x, List.mem_cons_of_mem d hx, hclear⟩
    have hbound := h.timely.bounded j t hmem
    have hd := h.timely.pending d (by simp [hagenda])
    show t ≤ d.time + b.clearDelay
    omega
  have hperform : b.performDue d = b1.perform d.task := by
    rw [Bridge.performDue, hnow, hagenda]
    rfl
  rw [hperform]
  have hnone : d.task ≠ .clear i → clearsOf i [d] = [] := fun hne => by simp [clearsOf, hne]
  cases htask : d.task with
  | clear j =>
    have hwritten : Follows t₀ i
        ⟨clearsOf i a, c.acts ++ (clearsOf i [d]).map fun due => (due, .write false)⟩
        (b1.write j false) := by
      by_cases hj : j = i
      · subst hj
        have hone : clearsOf j [d] = [d.time] := by simp [clearsOf, htask]
        rw [hone]
        exact h1.write false
      · rw [hnone (by simp [htask, hj]), List.map_nil, List.append_nil]
        exact h1.write_of_ne hj false
    simp only [perform]
    split
    · exact hwritten
    · exact hwritten.congr rfl rfl rfl rfl
  | frame j outcome =>
    rw [hnone (by simp [htask]), List.map_nil, List.append_nil]
    cases outcome with
    | image image => exact h1.keepImage j image
    | failed f => exact h1
    | crashed => exact h1

theorem Follows.foldl_performDue {due rest : List (Due Task)} (h : Follows t₀ i c b)
    (hagenda : b.agenda = due ++ rest) :
    Follows t₀ i ⟨clearsOf i rest, c.acts ++ (clearsOf i due).map fun due => (due, .write false)⟩
      (due.foldl Bridge.performDue b) := by
  induction due generalizing b c with
  | nil =>
    have hclears : clearsOf i rest = c.clears := by rw [← h.clears, Bridge.clears, hagenda]; rfl
    rw [hclears]
    simpa [clearsOf] using h
  | cons d due ih =>
    have hbare := bare_performDue b d
    have hrest : (b.performDue d).agenda = due ++ rest := by
      have : (b.performDue d).agenda = b.agenda.tail := (congrArg Bridge.agenda hbare :)
      rw [this, hagenda]
      rfl
    have hfold := ih (h.performDue hagenda) hrest
    have hsplit : clearsOf i (d :: due) = clearsOf i [d] ++ clearsOf i due := by
      rw [clearsOf, clearsOf, clearsOf, ← List.filterMap_append]
      rfl
    rw [hsplit, List.map_append, ← List.append_assoc]
    exact hfold

/-- Letting the clock run lets time pass for the entity. -/
theorem Follows.runUntil (h : Follows t₀ i c b) (time : Nat) :
    Follows t₀ i (c.elapse time) (b.runUntil time) := by
  obtain ⟨hdue, hafter⟩ := clearsOf_dueBy_after (i := i) h.timely.sorted time
  have hfold := h.foldl_performDue (b.agenda.dueBy_append_after time).symm
  have hcourse : c.elapse time = ⟨clearsOf i (b.agenda.after time),
      c.acts ++ (clearsOf i (b.agenda.dueBy time)).map fun due => (due, .write false)⟩ := by
    rw [hdue, hafter, ← Bridge.clears, h.clears]
    rfl
  rw [hcourse]
  exact ⟨h.timely.runUntil time, hfold.track, by
    rw [Bridge.clears, show (b.runUntil time).agenda = b.agenda.after time from
      (congrArg Bridge.agenda (bare_runUntil b time) :)]⟩

/-- Running up to a time without what is due just then lets the time before pass. -/
theorem Follows.runBefore (h : Follows t₀ i c b) (time : Nat) :
    Follows t₀ i (if time = 0 then c else c.elapse (time - 1)) (b.runBefore time) := by
  rw [runBefore_eq]
  split
  · next hzero => exact h.congr rfl rfl (by simp [hzero]) rfl
  · have hrun := h.runUntil (time - 1)
    refine ⟨⟨hrun.timely.sorted, fun d hd => ?_, fun j t ht => ?_⟩, hrun.track, hrun.clears⟩
    · have hagenda : (b.runUntil (time - 1)).agenda = b.agenda.after (time - 1) :=
        (congrArg Bridge.agenda (bare_runUntil b (time - 1)) :)
      have hd' : d ∈ b.agenda.after (time - 1) := hagenda ▸ hd
      have hpending := h.timely.pending d (Agenda.mem_of_mem_after hd')
      have hlater := Agenda.lt_time_of_mem_after h.timely.sorted hd'
      show max b.now time ≤ d.time
      omega
    · have hbound := hrun.timely.bounded j t ht
      have hnow := now_runUntil b (time - 1)
      show t ≤ max b.now time + (b.runUntil (time - 1)).clearDelay
      omega

/-- Planning something other than a clear of the entity passes it by. -/
theorem Follows.plan_of_ne {b' : Bridge} {time : Nat} {task : Task} (h : Follows t₀ i c b)
    (hagenda : b'.agenda = b.agenda.plan time task) (hentities : b'.entities = b.entities)
    (hlistening : b'.listening = b.listening) (houtbox : b'.outbox = b.outbox)
    (hnow : b'.now = b.now) (hdelay : b'.clearDelay = b.clearDelay) (htime : b.now ≤ time)
    (hclear : ∀ j, task = .clear j → j ≠ i ∧ time ≤ b.now + b.clearDelay) :
    Follows t₀ i c b' where
  timely := h.timely.plan hagenda hnow hdelay htime fun j hj => (hclear j hj).2
  track := by
    rw [track_congr (by rw [hentities]) hlistening (by rw [sentBy, houtbox, sentBy])]
    exact h.track
  clears := by
    rw [Bridge.clears, hagenda, clearsOf_plan_of_ne (fun hj => (hclear i hj).1 rfl)]
    exact h.clears

theorem clearTime?_le {time : Nat} (h : b.clearTime? = some time) :
    time = b.now + b.clearDelay := by
  unfold clearTime? at h
  split at h
  · simpa using h.symm
  · simp at h

theorem clearTime?_write (b : Bridge) (j : Nat) (value : Bool) :
    (b.write j value).clearTime? = b.clearTime? := by
  rw [← clearTime?_bare, bare_write, clearTime?_bare]

/-- Turning the entity on writes to it and plans its clear. -/
theorem Follows.trigger {k : Hearing} (h : Follows t₀ i c b)
    (hk : k.clearTime? b.now = b.clearTime?) :
    Follows t₀ i (c.trigger k b.now) (b.trigger i) := by
  have hwrite := h.write true
  have hnow : (b.write i true).now = b.now := (congrArg Bridge.now (bare_write b i true) :)
  have hdelay : (b.write i true).clearDelay = b.clearDelay :=
    (congrArg Bridge.clearDelay (bare_write b i true) :)
  simp only [Bridge.trigger, clearTime?_write]
  cases htime : b.clearTime? with
  | none => simpa [Course.trigger, Course.act, hk, htime] using hwrite
  | some time =>
    have hle := clearTime?_le htime
    refine ⟨hwrite.timely.plan rfl rfl rfl (by omega) fun _ _ => by omega, hwrite.track, ?_⟩
    have hbounded : ∀ t ∈ clearsOf i (b.write i true).agenda, t ≤ time := fun t ht => by
      have := hwrite.timely.bounded i t ht
      omega
    rw [Bridge.clears, clearsOf_plan hwrite.timely.sorted hbounded]
    rw [← Bridge.clears, hwrite.clears, Course.trigger, hk, htime]
    rfl

theorem Follows.trigger_of_ne {j : Nat} (h : Follows t₀ i c b) (hj : j ≠ i) :
    Follows t₀ i c (b.trigger j) := by
  have hwrite := h.write_of_ne hj true
  have hnow : (b.write j true).now = b.now := (congrArg Bridge.now (bare_write b j true) :)
  have hdelay : (b.write j true).clearDelay = b.clearDelay :=
    (congrArg Bridge.clearDelay (bare_write b j true) :)
  simp only [Bridge.trigger, clearTime?_write]
  cases htime : b.clearTime? with
  | none => exact hwrite
  | some time =>
    have hle := clearTime?_le htime
    refine hwrite.plan_of_ne rfl rfl rfl rfl rfl rfl (by omega) fun x hx => ?_
    obtain rfl : j = x := by simpa using hx
    exact ⟨hj, by omega⟩

/-- An event handed to a momentary sensor turns it on, and passes any other entity by. -/
theorem Follows.deliver {k : Hearing} {ent : Entity} (h : Follows t₀ i c b)
    (hent : b.entities[i]? = some ent) (hk : k.clearTime? b.now = b.clearTime?) (e : PushEvent) :
    Follows t₀ i (if ent.isMomentary then c.trigger k b.now else c) (Bridge.deliver e b i) := by
  unfold Bridge.deliver
  simp only [hent]
  cases hrole : ent.role with
  | momentary kind =>
    have hnote : Follows t₀ i c (b.note [⟨.info, .clears,
        s!"[Sensor] {ent.info.name} ({ent.deviceName b.session}): {e.describe}"⟩]) :=
      h.congr rfl rfl rfl rfl
    rw [if_pos (by simp [Entity.isMomentary, hrole])]
    exact hnote.trigger hk
  | polled flag => simpa [Entity.isMomentary, hrole] using h
  | camera image => simpa [Entity.isMomentary, hrole] using h

theorem Follows.deliver_of_ne {j : Nat} (h : Follows t₀ i c b) (hj : j ≠ i) (e : PushEvent) :
    Follows t₀ i c (Bridge.deliver e b j) := by
  unfold Bridge.deliver
  split
  · exact h
  · split
    · exact Follows.trigger_of_ne (h.congr rfl rfl rfl rfl) hj
    · exact h

/-- An operation on several entities in turn does to each what it does to it alone. -/
theorem Follows.foldl {f : Bridge → Nat → Bridge} {g : Course → Course} {is : List Nat}
    (hsteady : ∀ b j, Steady b (f b j) ∧ (f b j).now = b.now)
    (hself : i ∈ is → ∀ b' c, Steady b b' → b'.now = b.now → Follows t₀ i c b' →
      Follows t₀ i (g c) (f b' i))
    (hne : ∀ b' c j, j ≠ i → Follows t₀ i c b' → Follows t₀ i c (f b' j))
    (hnodup : is.Nodup) (h : Follows t₀ i c b) :
    Follows t₀ i (if i ∈ is then g c else c) (is.foldl f b) := by
  suffices hgen : ∀ b', Steady b b' → b'.now = b.now → ∀ c, Follows t₀ i c b' →
      Follows t₀ i (if i ∈ is then g c else c) (is.foldl f b') from
    hgen b (.refl b) rfl c h
  clear h
  induction is with
  | nil => intro b' _ _ c h; simpa using h
  | cons j is ih =>
    intro b' hb' hnow c h
    obtain ⟨hj, hnodup⟩ := List.nodup_cons.mp hnodup
    have hstep := hsteady b' j
    have hrest := ih (fun hi => hself (List.mem_cons_of_mem j hi)) hnodup (f b' j)
      (hb'.trans hstep.1) (hstep.2.trans hnow)
    by_cases heq : j = i
    · subst heq
      simpa [hj] using hrest (g c) (hself List.mem_cons_self b' c hb' hnow h)
    · have hmem : i ∈ j :: is ↔ i ∈ is := by simp [Ne.symm heq]
      rw [List.foldl_cons]
      simpa only [hmem] using hrest c (hne b' c j heq h)

theorem Follows.lt_length (h : Follows t₀ i c b) : i < b.entities.length := by
  by_contra hlt
  have := h.track
  simp [Bridge.track, List.getElem?_eq_none (Nat.not_lt.mp hlt)] at this

theorem Follows.publishAll (h : Follows t₀ i c b) :
    Follows t₀ i (c.act b.now .publish) b.publishAll := by
  have hfold : Follows t₀ i (if i ∈ List.range b.entities.length then c.act b.now .publish else c)
      b.publishAll := h.foldl (g := fun c => c.act b.now .publish)
    (fun b' j => Steady.of_bare_eq (bare_announce b' j))
    (fun _ b' c' _ hnow h' => hnow ▸ h'.announce)
    (fun b' c' j hj h' => h'.announce_of_ne hj) List.nodup_range
  rwa [if_pos (List.mem_range.mpr h.lt_length)] at hfold

/-- The identity of an entity lasts. -/
theorem entity_of_identities {b' : Bridge} {ent : Entity}
    (h : b'.bare.entities = b.bare.entities) (hent : b.entities[i]? = some ent) :
    ∃ ent', b'.entities[i]? = some ent' ∧ ent'.bare = ent.bare := by
  have hbare : b'.entities[i]?.map Entity.bare = some ent.bare := by
    rw [← getElem?_bare, h, getElem?_bare, hent]
    rfl
  exact Option.map_eq_some_iff.mp hbare

theorem Steady.entity {b' : Bridge} {ent : Entity} (h : Steady b b')
    (hent : b.entities[i]? = some ent) :
    ∃ ent', b'.entities[i]? = some ent' ∧ ent'.bare = ent.bare :=
  entity_of_identities h.identities hent

/-- Refreshing writes to an entity that follows the records what these say of it. -/
theorem Follows.refresh {ent : Entity} (h : Follows t₀ i c b)
    (hent : b.entities[i]? = some ent) :
    Follows t₀ i (match ent.reading? b.session with
      | none => c
      | some value => c.act b.now (.write value)) b.refresh := by
  have hself : ∀ b' c, Steady b b' → b'.now = b.now → Follows t₀ i c b' →
      Follows t₀ i (match ent.reading? b.session with
        | none => c
        | some value => c.act b.now (.write value)) (b'.refreshEntity i) := by
    intro b' c' hb' hnow h'
    obtain ⟨ent', hent', hbare⟩ := hb'.entity hent
    have hreading : ent'.reading? b'.session = ent.reading? b.session := by
      rw [← Entity.reading?_bare, hbare, Entity.reading?_bare, hb'.session]
    rw [refreshEntity, hent', Option.bind_some, hreading, ← hnow]
    cases ent.reading? b.session with
    | none => exact h'
    | some value => exact h'.write value
  have hne : ∀ b' c j, j ≠ i → Follows t₀ i c b' → Follows t₀ i c (b'.refreshEntity j) := by
    intro b' c' j hj h'
    unfold refreshEntity
    split
    · exact h'
    · exact h'.write_of_ne hj _
  have hfold := h.foldl (g := fun c => match ent.reading? b.session with
      | none => c
      | some value => c.act b.now (.write value))
    (fun b' j => Steady.of_bare_eq (bare_refreshEntity b' j)) (fun _ => hself) hne
    (List.nodup_range (n := b.entities.length))
  rw [if_pos (List.mem_range.mpr h.lt_length)] at hfold
  exact hfold

end

end Bridge

end AlarmBridge
