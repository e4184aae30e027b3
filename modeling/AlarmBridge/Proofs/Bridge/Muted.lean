import AlarmBridge.Proofs.Bridge.Media
import AlarmBridge.Bridge.Step

/-! What announcements and log lines matter for.  Every operation takes bridges that agree but for
the log, whatever it writes there, to bridges that do, and answers the same in both; and so it does
where they agree but for the announcements and the log.  `muted` forgets these. -/

set_option autoImplicit false

namespace AlarmBridge.Bridge

/-- A bridge without its announcements and its log. -/
def muted (b : Bridge) : Bridge := { b with listening := false, outbox := [], log := [] }

/-- A bridge with the announcements and the log of another. -/
def speaking (b c : Bridge) : Bridge :=
  { b with listening := c.listening, outbox := c.outbox, log := c.log }

theorem eq_speaking_of_muted {b b' : Bridge} (h : b.muted = b'.muted) : b' = b.speaking b' :=
  (congrArg (speaking · b') h.symm :)

/-- Bridges agree but for the log and, unless these are `heard`, the announcements. -/
structure Agree (heard : Prop) (b b' : Bridge) : Prop where
  muted : b.muted = b'.muted
  listening : heard → b.listening = b'.listening
  outbox : heard → b.outbox = b'.outbox

theorem muted_announce (b : Bridge) (i : Nat) : (b.announce i).muted = b.muted := by
  unfold announce
  split
  · rfl
  · split <;> rfl

theorem listening_announce (b : Bridge) (i : Nat) : (b.announce i).listening = b.listening := by
  unfold announce
  split
  · rfl
  · split <;> rfl

namespace Agree

variable {heard : Prop} {b b' : Bridge}

theorem refl (heard : Prop) (b : Bridge) : Agree heard b b := ⟨rfl, fun _ => rfl, fun _ => rfl⟩

/-- What does not look at announcements and log is the same. -/
theorem value (h : Agree heard b b') {α : Type} (g : Bridge → α)
    (hg : ∀ b c, g (b.speaking c) = g b) : g b = g b' :=
  (hg b b').symm.trans (congrArg g (eq_speaking_of_muted h.muted).symm)

theorem entities (h : Agree heard b b') : b.entities = b'.entities := h.value _ fun _ _ => rfl

theorem now (h : Agree heard b b') : b.now = b'.now := h.value _ fun _ _ => rfl

theorem clearTime? (h : Agree heard b b') : b.clearTime? = b'.clearTime? := h.value _ fun _ _ => rfl

/-- A change that leaves announcements and log alone, and does not look at them, keeps agreement. -/
theorem map (h : Agree heard b b') (f : Bridge → Bridge)
    (hf : ∀ b c, f (b.speaking c) = (f b).speaking c) : Agree heard (f b) (f b') := by
  have hb : f b = (f b).speaking b := hf b b
  have hb' : f b' = (f b).speaking b' :=
    (congrArg f (eq_speaking_of_muted h.muted)).trans (hf b b')
  refine ⟨?_, fun hheard => ?_, fun hheard => ?_⟩
  · exact (congrArg Bridge.muted hb').symm
  · exact (congrArg Bridge.listening hb).trans
      ((h.listening hheard).trans (congrArg Bridge.listening hb').symm)
  · exact (congrArg Bridge.outbox hb).trans
      ((h.outbox hheard).trans (congrArg Bridge.outbox hb').symm)

theorem note (h : Agree heard b b') (records records' : List Log.Record) :
    Agree heard (b.note records) (b'.note records') := ⟨h.muted, h.listening, h.outbox⟩

theorem announce (h : Agree heard b b') (i : Nat) : Agree heard (b.announce i) (b'.announce i) where
  muted := (muted_announce b i).trans (h.muted.trans (muted_announce b' i).symm)
  listening hheard :=
    (listening_announce b i).trans ((h.listening hheard).trans (listening_announce b' i).symm)
  outbox hheard := by
    unfold Bridge.announce
    rw [h.entities, h.now, h.listening hheard]
    split
    · exact h.outbox hheard
    · split
      · exact congrArg (· ++ _) (h.outbox hheard)
      · exact h.outbox hheard

/-- A loop whose step keeps agreement keeps it. -/
theorem foldl {α : Type} {f : Bridge → α → Bridge}
    (hf : ∀ {b b' : Bridge}, Agree heard b b' → ∀ x, Agree heard (f b x) (f b' x))
    (h : Agree heard b b') (xs : List α) : Agree heard (xs.foldl f b) (xs.foldl f b') := by
  induction xs generalizing b b' with
  | nil => exact h
  | cons x xs ih => exact ih (hf h x)

theorem publishAll (h : Agree heard b b') : Agree heard b.publishAll b'.publishAll := by
  unfold Bridge.publishAll
  rw [h.entities]
  exact foldl announce h _

theorem write (h : Agree heard b b') (i : Nat) (value : Bool) :
    Agree heard (b.write i value) (b'.write i value) :=
  (h.map (·.modify i (·.write value)) fun _ _ => rfl).announce i

theorem refreshEntity (h : Agree heard b b') (i : Nat) :
    Agree heard (b.refreshEntity i) (b'.refreshEntity i) := by
  have hreading : (b.entities[i]?.bind (·.reading? b.session)) =
      b'.entities[i]?.bind (·.reading? b'.session) :=
    h.value (fun b => b.entities[i]?.bind (·.reading? b.session)) fun _ _ => rfl
  unfold Bridge.refreshEntity
  rw [hreading]
  split
  · exact h
  · exact h.write i _

theorem refresh (h : Agree heard b b') : Agree heard b.refresh b'.refresh := by
  unfold Bridge.refresh
  rw [h.entities]
  exact foldl refreshEntity h _

theorem perform (h : Agree heard b b') (task : Task) :
    Agree heard (b.perform task) (b'.perform task) := by
  cases task with
  | clear i =>
    have hwrite := h.write i false
    simp only [Bridge.perform]
    rw [hwrite.entities]
    split
    · exact hwrite
    · exact hwrite.note _ _
  | frame i outcome =>
    cases outcome with
    | image image => exact h.map (·.modify i (·.keepImage image)) fun _ _ => rfl
    | failed f => exact h
    | crashed => exact h

theorem performDue (h : Agree heard b b') (d : Due Task) :
    Agree heard (b.performDue d) (b'.performDue d) :=
  (h.map (fun b => { b with now := max b.now d.time, agenda := b.agenda.tail })
    fun _ _ => rfl).perform d.task

theorem runUntil (h : Agree heard b b') (time : Nat) :
    Agree heard (b.runUntil time) (b'.runUntil time) := by
  have hagenda : b.agenda = b'.agenda := h.value _ fun _ _ => rfl
  unfold Bridge.runUntil
  rw [hagenda]
  exact (foldl performDue h _).map (fun b => { b with now := max b.now time }) fun _ _ => rfl

theorem runBefore (h : Agree heard b b') (time : Nat) :
    Agree heard (b.runBefore time) (b'.runBefore time) := by
  have hagenda : b.agenda = b'.agenda := h.value _ fun _ _ => rfl
  unfold Bridge.runBefore
  rw [hagenda]
  split
  · exact h
  · exact (foldl performDue h _).map (fun b => { b with now := max b.now time }) fun _ _ => rfl

theorem trigger (h : Agree heard b b') (i : Nat) : Agree heard (b.trigger i) (b'.trigger i) := by
  have hwrite := h.write i true
  simp only [Bridge.trigger]
  rw [hwrite.clearTime?]
  split
  · exact hwrite
  · next time _ =>
    exact hwrite.map (fun b => { b with agenda := b.agenda.plan time (.clear i) }) fun _ _ => rfl

theorem deliver (e : PushEvent) (h : Agree heard b b') (i : Nat) :
    Agree heard (deliver e b i) (deliver e b' i) := by
  unfold Bridge.deliver
  rw [h.entities]
  split
  · exact h
  · split
    · exact (h.note _ _).trigger i
    · exact h

theorem dispatch (h : Agree heard b b') (e : PushEvent) :
    Agree heard (b.dispatch e).1 (b'.dispatch e).1 ∧ (b.dispatch e).2 = (b'.dispatch e).2 := by
  have hreceivers : b.receivers e = b'.receivers e := h.value (·.receivers e) fun _ _ => rfl
  unfold Bridge.dispatch
  rw [hreceivers, h.clearTime?]
  split
  · exact ⟨h.note _ _, rfl⟩
  · split
    · exact ⟨foldl (deliver e) h _, rfl⟩
    · exact ⟨deliver e h _, rfl⟩

theorem fetch (h : Agree heard b b') (i : Nat) (e : Entity) (timeout : Option Nat) :
    Agree heard (b.fetch i e timeout).1 (b'.fetch i e timeout).1 ∧
      (b.fetch i e timeout).2 = (b'.fetch i e timeout).2 := by
  have hshutter : b.shutterOpen e = b'.shutterOpen e := h.value (·.shutterOpen e) fun _ _ => rfl
  have hframe : b.nextFrame = b'.nextFrame := h.value _ fun _ _ => rfl
  cases hopen : b'.shutterOpen e with
  | false =>
    rw [fetch_of_shut (hshutter.trans hopen), fetch_of_shut hopen]
    exact ⟨h, h.value (fun b => Still.image (b.cachedImage? i)) fun _ _ => rfl⟩
  | true =>
    rw [fetch_of_open (hshutter.trans hopen), fetch_of_open hopen,
      still_of_open (hshutter.trans hopen), still_of_open hopen, hframe, h.now]
    exact ⟨(h.map (·.grabbing i e) fun _ _ => rfl).runUntil _, rfl⟩

theorem afterStream (h : Agree heard b b') (run : StreamRun) :
    Agree heard (b.afterStream run) (b'.afterStream run) :=
  (((h.runBefore run.time).note run.log run.log).map
    (fun b => { b with grabber := b.grabber.noteReleases run.releases }) fun _ _ => rfl).runUntil _

theorem stream (h : Agree heard b b') (e : Entity) (w : Writer) (timeout : Option Nat) :
    Agree heard (b.stream e w timeout).1 (b'.stream e w timeout).1 ∧
      (b.stream e w timeout).2 = (b'.stream e w timeout).2 := by
  have hoffer : b.nextStream = b'.nextStream := h.value _ fun _ _ => rfl
  have hopening : Agree heard (b.opening e) (b'.opening e) := h.map (·.opening e) fun _ _ => rfl
  cases hnext : b'.nextStream with
  | error f =>
    rw [stream_of_error (hoffer.trans hnext), stream_of_error hnext]
    exact ⟨hopening, rfl⟩
  | ok process =>
    rw [stream_of_ok (hoffer.trans hnext), stream_of_ok hnext, h.now]
    exact ⟨hopening.afterStream _, rfl⟩

theorem stateOf (h : Agree heard b b') (i : Nat) : b.stateOf i = b'.stateOf i :=
  h.value (·.stateOf i) fun _ _ => rfl

/-- A session that is put in both places, with whatever is logged of it. -/
theorem apply (h : Agree heard b b') {s s' : Snapshot}
    (hs : b.session.apply s = b.session.apply s') : Agree heard (b.apply s) (b'.apply s') := by
  have hsession : b.session = b'.session := h.value _ fun _ _ => rfl
  unfold Bridge.apply
  rw [← hsession, ← hs]
  exact (h.note _ _).map (fun noted => { noted with session := b.session.apply s }) fun _ _ => rfl

/-- A step takes bridges that agree to bridges that do, with the same answer. -/
theorem act (h : Agree heard b b') (s : Step) :
    Agree heard (b.act s).1 (b'.act s).1 ∧ (b.act s).2 = (b'.act s).2 := by
  cases s with
  | look => exact ⟨h, rfl⟩
  | publishAll => exact ⟨h.publishAll, rfl⟩
  | refresh => exact ⟨h.refresh, rfl⟩
  | apply next => exact ⟨h.apply rfl, rfl⟩
  | poll text =>
    simp only [Bridge.act]
    split
    · exact ⟨(h.apply rfl).refresh, rfl⟩
    · exact ⟨h, rfl⟩
  | push text =>
    simp only [Bridge.act]
    split
    · exact ⟨(h.dispatch _).1, congrArg Answer.delivery (h.dispatch _).2⟩
    · exact ⟨h, rfl⟩
  | dispatch e => exact ⟨(h.dispatch e).1, congrArg Answer.delivery (h.dispatch e).2⟩
  | deliver i e =>
    have hmomentary : b.isMomentary i = b'.isMomentary i := h.value (·.isMomentary i) fun _ _ => rfl
    refine ⟨h.deliver e i, ?_⟩
    simp only [Bridge.act, afterTrigger]
    rw [hmomentary, h.clearTime?, (h.deliver e i).stateOf]
  | advance ms =>
    refine ⟨?_, rfl⟩
    show Agree heard (b.runUntil (b.now + ms)) (b'.runUntil (b'.now + ms))
    rw [h.now]
    exact h.runUntil _
  | fetch i timeout =>
    simp only [Bridge.act]
    rw [h.entities]
    split
    · exact ⟨h, rfl⟩
    · exact ⟨(h.fetch i _ timeout).1, congrArg Answer.still (h.fetch i _ timeout).2⟩
  | stream i w timeout =>
    simp only [Bridge.act]
    rw [h.entities]
    split
    · exact ⟨h, rfl⟩
    · exact ⟨(h.stream _ w timeout).1,
        congrArg (fun got => Answer.streamed got.1 got.2) (h.stream _ w timeout).2⟩
  | queueFrame frame =>
    exact ⟨h.map (fun b => { b with
      grabber := { b.grabber with frames := b.grabber.frames ++ [frame] } }) fun _ _ => rfl, rfl⟩
  | queueStream offer =>
    exact ⟨h.map (fun b => { b with
      grabber := { b.grabber with streams := b.grabber.streams ++ [offer] } }) fun _ _ => rfl, rfl⟩
  | setState systemId state =>
    exact ⟨h.map (fun b => { b with session := b.session.setState systemId state }) fun _ _ => rfl,
      rfl⟩
  | close => exact ⟨⟨h.muted, fun _ => rfl, h.outbox⟩, rfl⟩

theorem settle (h : Agree heard b b') : Agree heard b.settle b'.settle := by
  unfold Bridge.settle
  rw [h.now]
  exact h.runUntil _

theorem step (h : Agree heard b b') (s : Step) :
    Agree heard (b.step s).1 (b'.step s).1 ∧ (b.step s).2 = (b'.step s).2 :=
  ⟨(h.act s).1.settle, (h.act s).2⟩

theorem run (h : Agree heard b b') (steps : List Step) : Agree heard (b.run steps) (b'.run steps) :=
  foldl (fun h s => (h.step s).1) h steps

end Agree

variable {b : Bridge}

theorem dueBy_after {a : Agenda Task} (time : Nat) : (a.after time).dueBy time = [] := by
  induction a with
  | nil => rfl
  | cons d a ih =>
    by_cases hd : d.time ≤ time
    · have hafter : Agenda.after (d :: a) time = Agenda.after a time := by
        simp [Agenda.after, hd]
      rw [hafter]
      exact ih
    · simp [Agenda.after, Agenda.dueBy, hd]

/-- Nothing is due at the present time. -/
def Settled (b : Bridge) : Prop := b.agenda.dueBy b.now = []

theorem Settled.settle (h : Settled b) : b.settle = b := by
  unfold Bridge.settle runUntil
  rw [h]
  simp

theorem settled_settle (b : Bridge) : Settled b.settle := by
  have hagenda : b.settle.agenda = b.agenda.after b.now :=
    (congrArg Bridge.agenda (bare_runUntil b b.now) :)
  have hnow : b.settle.now = b.now := by
    show (b.runUntil b.now).now = b.now
    rw [now_runUntil, Nat.max_self]
  unfold Settled
  rw [hagenda, hnow]
  exact dueBy_after _

theorem settled_step (b : Bridge) (s : Step) : Settled (b.step s).1 := settled_settle _

theorem settled_run (h : Settled b) (steps : List Step) : Settled (b.run steps) := by
  induction steps generalizing b with
  | nil => exact h
  | cons s steps ih => exact ih (settled_step b s)

theorem run_append (b : Bridge) (steps more : List Step) :
    b.run (steps ++ more) = (b.run steps).run more := List.foldl_append

/-- Closing the receiver at any point changes nothing but the announcements and the log. -/
theorem muted_run_close (h : Settled b) (before after : List Step) :
    (b.run (before ++ .close :: after)).muted = (b.run (before ++ after)).muted := by
  rw [run_append, run_append]
  have hbefore := settled_run h before
  have hclose : ((b.run before).step .close).1.muted = (b.run before).muted := by
    have hclosed : Settled { b.run before with listening := false } := hbefore
    exact (congrArg muted hclosed.settle :)
  have hagree : Agree False ((b.run before).step .close).1 (b.run before) :=
    ⟨hclose, False.elim, False.elim⟩
  exact (hagree.run after).muted

end AlarmBridge.Bridge
