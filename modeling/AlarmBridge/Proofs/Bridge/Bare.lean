import AlarmBridge.Bridge.Solo
import AlarmBridge.Proofs.Agenda
import Mathlib.Data.List.Basic

/-! What the operations of a bridge leave alone.  `bare` forgets the states and images of the
entities, the announcements and the log; writing, announcing and refreshing change nothing else, and
letting time pass changes the clock and the agenda. -/

set_option autoImplicit false

namespace AlarmBridge

/-- What drives an entity, without the image of a camera. -/
def Role.bare : Role → Role
  | .camera _ => .camera none
  | role => role

/-- An entity without its state and its image. -/
def Entity.bare (e : Entity) : Entity := { e with role := e.role.bare, cell := .new false }

namespace Entity

@[simp] theorem info_bare (e : Entity) : e.bare.info = e.info := rfl

@[simp] theorem bare_write (e : Entity) (value : Bool) : (e.write value).bare = e.bare := rfl

@[simp] theorem bare_keepImage (e : Entity) (image : Bytes) :
    (e.keepImage image).bare = e.bare := by
  obtain ⟨info, role, cell⟩ := e
  cases role <;> rfl

@[simp] theorem subscribed_bare (e : Entity) : e.bare.subscribed = e.subscribed := by
  obtain ⟨info, role, cell⟩ := e
  cases role <;> rfl

@[simp] theorem isCamera_bare (e : Entity) : e.bare.isCamera = e.isCamera := by
  obtain ⟨info, role, cell⟩ := e
  cases role <;> rfl

@[simp] theorem receives_bare (e : Entity) (event : PushEvent) :
    e.bare.receives event = e.receives event := by
  simp [receives]

@[simp] theorem reading?_bare (e : Entity) (s : Session) : e.bare.reading? s = e.reading? s := by
  obtain ⟨info, role, cell⟩ := e
  cases role <;> rfl

end Entity

namespace Bridge

/-- A bridge without the states and images of its entities, its announcements and its log. -/
def bare (b : Bridge) : Bridge :=
  { b with entities := b.entities.map Entity.bare, outbox := [], log := [] }

@[simp] theorem getElem?_bare (b : Bridge) (i : Nat) :
    b.bare.entities[i]? = b.entities[i]?.map Entity.bare := by simp [bare]

@[simp] theorem clearTime?_bare (b : Bridge) : b.bare.clearTime? = b.clearTime? := rfl

@[simp] theorem receivers_bare (b : Bridge) (e : PushEvent) :
    b.bare.receivers e = b.receivers e := by
  have hlength : b.bare.entities.length = b.entities.length := List.length_map _
  unfold receivers
  rw [hlength]
  refine List.filter_congr fun i _ => ?_
  rw [getElem?_bare]
  cases b.entities[i]? <;> simp

@[simp] theorem bare_note (b : Bridge) (records : List Log.Record) :
    (b.note records).bare = b.bare :=
  rfl

theorem bare_modify (b : Bridge) (i : Nat) {f : Entity → Entity} (hf : ∀ e, (f e).bare = e.bare) :
    (b.modify i f).bare = b.bare := by
  have hmap : (b.entities.modify i f).map Entity.bare = b.entities.map Entity.bare := by
    refine List.ext_getElem? fun j => ?_
    simp only [List.getElem?_map, List.getElem?_modify]
    split <;> cases b.entities[j]? <;> simp [hf]
  simp [bare, modify, hmap]

@[simp] theorem bare_announce (b : Bridge) (i : Nat) : (b.announce i).bare = b.bare := by
  unfold announce
  split
  · rfl
  · split <;> rfl

@[simp] theorem bare_write (b : Bridge) (i : Nat) (value : Bool) :
    (b.write i value).bare = b.bare := by
  rw [write, bare_announce]
  exact bare_modify b i fun e => Entity.bare_write e value

theorem bare_foldl {α : Type} {f : Bridge → α → Bridge} (hf : ∀ b x, (f b x).bare = b.bare)
    (b : Bridge) (xs : List α) : (xs.foldl f b).bare = b.bare := by
  induction xs generalizing b with
  | nil => rfl
  | cons x xs ih => rw [List.foldl_cons, ih, hf]

@[simp] theorem bare_publishAll (b : Bridge) : b.publishAll.bare = b.bare :=
  bare_foldl bare_announce b _

@[simp] theorem bare_refreshEntity (b : Bridge) (i : Nat) : (b.refreshEntity i).bare = b.bare := by
  unfold refreshEntity
  split
  · rfl
  · exact bare_write b i _

@[simp] theorem bare_refresh (b : Bridge) : b.refresh.bare = b.bare :=
  bare_foldl bare_refreshEntity b _

theorem bare_perform (b : Bridge) (task : Task) : (b.perform task).bare = b.bare := by
  cases task with
  | clear i =>
    simp only [perform]
    split <;> simp
  | frame i outcome =>
    cases outcome with
    | image image => exact bare_modify b i fun e => Entity.bare_keepImage e image
    | failed f => rfl
    | crashed => rfl

/-- A bridge at another time with another agenda. -/
def atTime (b : Bridge) (now : Nat) (agenda : Agenda Task) : Bridge :=
  { b with now := now, agenda := agenda }

theorem bare_performDue (b : Bridge) (d : Due Task) :
    (b.performDue d).bare = b.bare.atTime (max b.now d.time) b.agenda.tail := by
  rw [performDue, bare_perform]
  rfl

theorem bare_foldl_performDue {due : List (Due Task)} {time : Nat} (h : ∀ d ∈ due, d.time ≤ time)
    (b : Bridge) :
    ∃ now ≤ max b.now time, b.now ≤ now ∧
      (due.foldl performDue b).bare = b.bare.atTime now (b.agenda.drop due.length) := by
  induction due generalizing b with
  | nil => exact ⟨b.now, by omega, Nat.le_refl _, rfl⟩
  | cons d due ih =>
    have hd := bare_performDue b d
    have hnow : (b.performDue d).now = max b.now d.time := congrArg Bridge.now hd
    have hagenda : (b.performDue d).agenda = b.agenda.tail := congrArg Bridge.agenda hd
    obtain ⟨now, hle, hge, hfold⟩ := ih (fun x hx => h x (by simp [hx])) (b.performDue d)
    have htime := h d (by simp)
    refine ⟨now, by omega, by omega, ?_⟩
    rw [List.foldl_cons, hfold, hd, hagenda, List.drop_tail]
    rfl

/-- Letting the clock run moves it and takes from the agenda what is due. -/
theorem bare_runUntil (b : Bridge) (time : Nat) :
    (b.runUntil time).bare = b.bare.atTime (max b.now time) (b.agenda.after time) := by
  obtain ⟨now, hle, hge, hfold⟩ := bare_foldl_performDue
    (fun d (hd : d ∈ b.agenda.dueBy time) => Agenda.time_le_of_mem_dueBy hd) b
  have hdrop : b.agenda.drop (b.agenda.dueBy time).length = b.agenda.after time :=
    calc b.agenda.drop (b.agenda.dueBy time).length
        = (b.agenda.dueBy time ++ b.agenda.after time).drop (b.agenda.dueBy time).length := by
          rw [Agenda.dueBy_append_after]
      _ = b.agenda.after time := List.drop_left
  have hnow : ((b.agenda.dueBy time).foldl performDue b).now = now := congrArg Bridge.now hfold
  have hmax : max now time = max b.now time := by omega
  calc (b.runUntil time).bare
      = ((b.agenda.dueBy time).foldl performDue b).bare.atTime
          (max ((b.agenda.dueBy time).foldl performDue b).now time)
          ((b.agenda.dueBy time).foldl performDue b).bare.agenda := rfl
    _ = b.bare.atTime (max b.now time) (b.agenda.after time) := by
      rw [hnow, hmax, hfold, hdrop]
      rfl

/-- `after` follows `before` with the same records, the same entities but for their states and
images, and the same delay of clears. -/
structure Steady (before after : Bridge) : Prop where
  session : after.session = before.session
  identities : after.bare.entities = before.bare.entities
  clearDelay : after.clearDelay = before.clearDelay
  now : before.now ≤ after.now

theorem Steady.refl (b : Bridge) : Steady b b := ⟨rfl, rfl, rfl, Nat.le_refl _⟩

theorem Steady.trans {b1 b2 b3 : Bridge} (h1 : Steady b1 b2) (h2 : Steady b2 b3) : Steady b1 b3 :=
  ⟨h2.session.trans h1.session, h2.identities.trans h1.identities,
    h2.clearDelay.trans h1.clearDelay, Nat.le_trans h1.now h2.now⟩

theorem Steady.of_bare {b b' : Bridge} {now : Nat} {agenda : Agenda Task}
    (h : b'.bare = b.bare.atTime now agenda) (hnow : b.now ≤ now) : Steady b b' where
  session := (congrArg Bridge.session h :)
  identities := (congrArg Bridge.entities h :)
  clearDelay := (congrArg Bridge.clearDelay h :)
  now := by
    have hnow' : b'.now = now := (congrArg Bridge.now h :)
    omega

theorem Steady.of_bare_eq {b b' : Bridge} (h : b'.bare = b.bare) :
    Steady b b' ∧ b'.now = b.now := by
  have hat : b'.bare = b.bare.atTime b.now b.agenda := h
  exact ⟨.of_bare hat (Nat.le_refl _), (congrArg Bridge.now h :)⟩

/-- Who receives an event depends on the identities of the entities only. -/
theorem receivers_congr {b b' : Bridge} (h : b'.bare.entities = b.bare.entities) (e : PushEvent) :
    b'.receivers e = b.receivers e := by
  rw [← receivers_bare b', ← receivers_bare b, receivers, receivers, h]

theorem bare_trigger (b : Bridge) (i : Nat) :
    (b.trigger i).bare = b.bare.atTime b.now (b.trigger i).agenda := by
  have hwrite := bare_write b i true
  have hagenda : (b.write i true).agenda = b.agenda := (congrArg Bridge.agenda hwrite :)
  have hnow : (b.write i true).now = b.now := (congrArg Bridge.now hwrite :)
  simp only [trigger]
  split
  · rw [hwrite, hagenda]
    rfl
  · next time htime =>
    calc
      ({ b.write i true with agenda := (b.write i true).agenda.plan time (.clear i) } : Bridge).bare
        = (b.write i true).bare.atTime (b.write i true).now
            ((b.write i true).agenda.plan time (.clear i)) := rfl
      _ = b.bare.atTime b.now ((b.write i true).agenda.plan time (.clear i)) := by rw [hwrite, hnow]

theorem bare_deliver (e : PushEvent) (b : Bridge) (i : Nat) :
    (deliver e b i).bare = b.bare.atTime b.now (deliver e b i).agenda := by
  unfold deliver
  split
  · rfl
  · split
    · exact bare_trigger _ i
    · rfl

theorem steady_deliver (e : PushEvent) (b : Bridge) (i : Nat) : Steady b (deliver e b i) :=
  .of_bare (bare_deliver e b i) (Nat.le_refl _)

theorem now_deliver (e : PushEvent) (b : Bridge) (i : Nat) : (deliver e b i).now = b.now :=
  (congrArg Bridge.now (bare_deliver e b i) :)

/-- The entities that an event reaches: all its receivers, or the first of them where the clock
cannot hold the time of the clear. -/
def served (b : Bridge) (e : PushEvent) : List Nat :=
  if b.clearTime?.isSome then b.receivers e else (b.receivers e).take 1

theorem mem_receivers_of_mem_served {b : Bridge} {e : PushEvent} {i : Nat} (hi : i ∈ b.served e) :
    i ∈ b.receivers e := by
  unfold served at hi
  split at hi
  · exact hi
  · exact List.mem_of_mem_take hi

theorem receives_of_mem_served {b : Bridge} {e : PushEvent} {i : Nat} {ent : Entity}
    (hent : b.entities[i]? = some ent) (hi : i ∈ b.served e) : ent.receives e = true := by
  simpa [receivers, hent] using (List.mem_filter.mp (mem_receivers_of_mem_served hi)).2

/-- Dispatching delivers an event to those it reaches. -/
theorem dispatch_eq (b : Bridge) (e : PushEvent) :
    ∃ records, (b.dispatch e).1 = ((b.served e).foldl (deliver e) b).note records := by
  unfold dispatch served
  cases hreceivers : b.receivers e with
  | nil =>
    simp only [ite_self, List.take_nil, List.foldl_nil]
    exact ⟨_, rfl⟩
  | cons i is =>
    refine ⟨[], ?_⟩
    have hnote : ∀ b' : Bridge, b'.note [] = b' := fun b' => by simp [note]
    by_cases htime : b.clearTime?.isSome = true
    · simp [htime, hnote]
    · simp [htime, hnote]

theorem steady_foldl_deliver (e : PushEvent) (b : Bridge) (is : List Nat) :
    Steady b (is.foldl (deliver e) b) ∧ (is.foldl (deliver e) b).now = b.now := by
  induction is generalizing b with
  | nil => exact ⟨.refl b, rfl⟩
  | cons i is ih =>
    obtain ⟨hsteady, hnow⟩ := ih (deliver e b i)
    exact ⟨(steady_deliver e b i).trans hsteady, hnow.trans (now_deliver e b i)⟩

theorem steady_dispatch (b : Bridge) (e : PushEvent) :
    Steady b (b.dispatch e).1 ∧ (b.dispatch e).1.now = b.now := by
  obtain ⟨records, h⟩ := dispatch_eq b e
  rw [h]
  obtain ⟨hsteady, hnow⟩ := steady_foldl_deliver e b (b.served e)
  exact ⟨⟨hsteady.session, hsteady.identities, hsteady.clearDelay, hsteady.now⟩, hnow⟩

theorem steady_runUntil (b : Bridge) (time : Nat) : Steady b (b.runUntil time) :=
  .of_bare (bare_runUntil b time) (Nat.le_max_left _ _)

theorem now_runUntil (b : Bridge) (time : Nat) : (b.runUntil time).now = max b.now time :=
  congrArg Bridge.now (bare_runUntil b time)

theorem steady_setNow (b : Bridge) (time : Nat) : Steady b { b with now := max b.now time } :=
  ⟨rfl, rfl, rfl, Nat.le_max_left _ _⟩

/-- Running up to a time without what is due just then is running to the moment before and moving
the clock. -/
theorem runBefore_eq (b : Bridge) (time : Nat) :
    b.runBefore time =
      { (if time = 0 then b else b.runUntil (time - 1)) with now := max b.now time } := by
  unfold runBefore
  split
  · next h => simp [h]
  · obtain ⟨now, hle, hge, hfold⟩ := bare_foldl_performDue
      (fun d (hd : d ∈ b.agenda.dueBy (time - 1)) => Agenda.time_le_of_mem_dueBy hd) b
    have hnow : ((b.agenda.dueBy (time - 1)).foldl performDue b).now = now :=
      congrArg Bridge.now hfold
    have hmax : max now time = max b.now time := by omega
    simp [runUntil, hnow, hmax]

theorem steady_runBefore (b : Bridge) (time : Nat) : Steady b (b.runBefore time) := by
  rw [runBefore_eq]
  split
  · exact steady_setNow b time
  · have h := steady_runUntil b (time - 1)
    exact ⟨h.session, h.identities, h.clearDelay, Nat.le_max_left _ _⟩

end Bridge

end AlarmBridge
