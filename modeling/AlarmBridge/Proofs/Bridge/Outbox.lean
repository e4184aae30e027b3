import AlarmBridge.Proofs.Bridge.Media
import AlarmBridge.Proofs.Bridge.Registered
import AlarmBridge.Bridge.Step

/-! What the announcements of a bridge are.  All that a step does to the entities and the
announcements is announcing, writing and keeping images; so what these three keep is kept by every
run.  From its setup on, a bridge only adds announcements, and each is signed: it comes from a
registered entity and bears the id of that. -/

set_option autoImplicit false

namespace AlarmBridge.Bridge

/-- A property of the entities and the announcements that is kept by announcing, writing and keeping
images. -/
structure Kept (P : Bridge → Prop) : Prop where
  congr : ∀ {b b' : Bridge}, P b → b'.entities = b.entities → b'.outbox = b.outbox → P b'
  announce : ∀ {b : Bridge} (i : Nat), P b → P (b.announce i)
  modify : ∀ {b : Bridge} (i : Nat) (value : Bool), P b → P (b.modify i (·.write value))
  keepImage : ∀ {b : Bridge} (i : Nat) (image : Bytes), P b → P (b.modify i (·.keepImage image))

namespace Kept

variable {P : Bridge → Prop} {b : Bridge}

theorem foldl {α : Type} {f : Bridge → α → Bridge} (hf : ∀ {b}, P b → ∀ x, P (f b x)) (xs : List α)
    (h : P b) : P (xs.foldl f b) :=
  List.foldlRecOn (motive := P) xs f h fun _ hb x _ => hf hb x

variable (hP : Kept P) (h : P b)

include hP h

theorem write (i : Nat) (value : Bool) : P (b.write i value) :=
  hP.announce i (hP.modify i value h)

theorem publishAll : P b.publishAll := foldl (P := P) (fun hb i => hP.announce i hb) _ h

theorem refreshEntity (i : Nat) : P (b.refreshEntity i) := by
  unfold Bridge.refreshEntity
  split
  · exact h
  · exact hP.write h i _

theorem refresh : P b.refresh := foldl (P := P) (fun hb i => hP.refreshEntity hb i) _ h

theorem perform (task : Task) : P (b.perform task) := by
  cases task with
  | clear i =>
    simp only [Bridge.perform]
    split
    · exact hP.write h i false
    · exact hP.congr (hP.write h i false) rfl rfl
  | frame i outcome =>
    cases outcome with
    | image image => exact hP.keepImage i image h
    | failed f => exact h
    | crashed => exact h

theorem performDue (d : Due Task) : P (b.performDue d) := by
  have hmoved : P (b.atTime (max b.now d.time) b.agenda.tail) := hP.congr h rfl rfl
  exact hP.perform hmoved d.task

theorem runUntil (time : Nat) : P (b.runUntil time) :=
  hP.congr (foldl (P := P) (fun hb d => hP.performDue hb d) (b.agenda.dueBy time) h) rfl rfl

theorem runBefore (time : Nat) : P (b.runBefore time) := by
  rw [runBefore_eq]
  split
  · exact hP.congr h rfl rfl
  · exact hP.congr (hP.runUntil h (time - 1)) rfl rfl

theorem trigger (i : Nat) : P (b.trigger i) := by
  simp only [Bridge.trigger]
  split
  · exact hP.write h i true
  · exact hP.congr (hP.write h i true) rfl rfl

theorem deliver (e : PushEvent) (i : Nat) : P (Bridge.deliver e b i) := by
  have hnoted : ∀ records, P (b.note records) := fun _ => hP.congr h rfl rfl
  unfold Bridge.deliver
  split
  · exact h
  · split
    · exact hP.trigger (hnoted _) i
    · exact h

theorem dispatch (e : PushEvent) : P (b.dispatch e).1 := by
  obtain ⟨records, hdispatch⟩ := dispatch_eq b e
  rw [hdispatch]
  exact hP.congr (foldl (P := P) (fun hb i => hP.deliver hb e i) (b.served e) h) rfl rfl

theorem fetch (i : Nat) (e : Entity) (timeout : Option Nat) : P (b.fetch i e timeout).1 := by
  cases hshutter : b.shutterOpen e with
  | false =>
    rw [fetch_of_shut hshutter]
    exact h
  | true =>
    have hgrabbing : P (b.grabbing i e) := hP.congr h rfl rfl
    rw [fetch_of_open hshutter]
    exact hP.runUntil hgrabbing _

theorem afterStream (run : StreamRun) : P (b.afterStream run) := by
  have hreleased : P { (b.runBefore run.time).note run.log with
      grabber := (b.runBefore run.time).grabber.noteReleases run.releases } :=
    hP.congr (hP.runBefore h run.time) rfl rfl
  exact hP.runUntil hreleased run.time

theorem stream (e : Entity) (w : Writer) (timeout : Option Nat) : P (b.stream e w timeout).1 := by
  have hopening : P (b.opening e) := hP.congr h rfl rfl
  cases hoffer : b.nextStream with
  | error f =>
    rw [stream_of_error hoffer]
    exact hopening
  | ok process =>
    rw [stream_of_ok hoffer]
    exact hP.afterStream hopening _

theorem act (s : Step) : P (b.act s).1 := by
  cases s with
  | look => exact h
  | publishAll => exact hP.publishAll h
  | refresh => exact hP.refresh h
  | apply next => exact hP.congr h rfl rfl
  | poll text =>
    simp only [Bridge.act]
    split
    · next next _ =>
      have happlied : P (b.apply next) := hP.congr h rfl rfl
      exact hP.refresh happlied
    · exact h
  | push text =>
    simp only [Bridge.act]
    split
    · exact hP.dispatch h _
    · exact h
  | dispatch e => exact hP.dispatch h e
  | deliver i e => exact hP.deliver h e i
  | advance ms => exact hP.runUntil h _
  | fetch i timeout =>
    simp only [Bridge.act]
    split
    · exact h
    · exact hP.fetch h i _ timeout
  | stream i w timeout =>
    simp only [Bridge.act]
    split
    · exact h
    · exact hP.stream h _ w timeout
  | queueFrame frame => exact hP.congr h rfl rfl
  | queueStream offer => exact hP.congr h rfl rfl
  | setState systemId state => exact hP.congr h rfl rfl
  | close => exact hP.congr h rfl rfl

theorem step (s : Step) : P (b.step s).1 := hP.runUntil (hP.act h s) _

theorem run (steps : List Step) : P (b.run steps) :=
  foldl (P := P) (fun hb s => hP.step hb s) steps h

end Kept

/-- An announcement appends at most what the cell of its entity says. -/
theorem outbox_announce_eq (b : Bridge) (i : Nat) :
    (b.announce i).outbox = b.outbox ∨ ∃ e c, b.entities[i]? = some e ∧
      e.cell.change? (.ofMillis b.now) = some c ∧ (b.announce i).outbox = b.outbox ++ [⟨i, c⟩] := by
  unfold announce
  split
  · exact .inl rfl
  · next c hc =>
    obtain ⟨e, he, hc⟩ := Option.bind_eq_some_iff.mp hc
    split
    · exact .inr ⟨e, c, he, hc, rfl⟩
    · exact .inl rfl

/-- Announcements are only added. -/
theorem kept_outbox (sent : List Notice) : Kept fun b => sent <+: b.outbox where
  congr h _ houtbox := by rw [houtbox]; exact h
  announce i h := by
    rcases outbox_announce_eq _ i with hsame | ⟨e, c, -, -, hmore⟩
    · rw [hsame]
      exact h
    · rw [hmore]
      exact h.trans (List.prefix_append _ _)
  modify _ _ h := h
  keepImage _ _ h := h

/-- Every entity is announced under its id, and every announcement is one of a registered entity
under its id. -/
structure Signed (b : Bridge) : Prop where
  cells : ∀ (i : Nat) (e : Entity), b.entities[i]? = some e →
    e.cell.announcedAs = some e.info.uniqueId
  notices : ∀ n ∈ b.outbox,
    ∃ e, b.entities[n.source]? = some e ∧ n.change.uniqueId = e.info.uniqueId

/-- Changing an entity leaves announcements signed if it keeps who the entity is. -/
theorem Signed.modify {b : Bridge} (h : Signed b) (i : Nat) {f : Entity → Entity}
    (hinfo : ∀ e, (f e).info = e.info)
    (hcell : ∀ e, (f e).cell.announcedAs = e.cell.announcedAs) : Signed (b.modify i f) where
  cells j e hent := by
    rw [Bridge.modify, List.getElem?_modify] at hent
    obtain ⟨e, he, rfl⟩ := Option.map_eq_some_iff.mp hent
    split
    · rw [hinfo, hcell]
      exact h.cells j e he
    · exact h.cells j e he
  notices n hn := by
    obtain ⟨e, he, hid⟩ := h.notices n hn
    refine ⟨if i = n.source then f e else e, ?_, ?_⟩
    · rw [Bridge.modify, List.getElem?_modify, he]
      rfl
    · split
      · rw [hinfo]
        exact hid
      · exact hid

theorem kept_signed : Kept Signed where
  congr h hentities houtbox := by
    obtain ⟨hcells, hnotices⟩ := h
    exact ⟨by rw [hentities]; exact hcells, by rw [hentities, houtbox]; exact hnotices⟩
  announce := by
    intro b i h
    refine ⟨by rw [entities_announce]; exact h.cells, fun n hn => ?_⟩
    rw [entities_announce]
    rcases outbox_announce_eq b i with hsame | ⟨e, c, he, hc, hmore⟩
    · exact h.notices n (hsame ▸ hn)
    · rw [hmore] at hn
      rcases List.mem_append.mp hn with hn | hn
      · exact h.notices n hn
      · obtain rfl := List.mem_singleton.mp hn
        rw [StateCell.change?, h.cells i e he] at hc
        obtain rfl := Option.some.inj hc
        exact ⟨e, he, rfl⟩
  modify i value h := h.modify i (fun _ => rfl) fun e => e.cell.announcedAs_write value
  keepImage i image h := h.modify i (fun e => (congrArg Entity.info (e.bare_keepImage image) :))
    fun e => by
      obtain ⟨info, role, cell⟩ := e
      cases role <;> rfl

theorem signed_setup (s : Session) (clearDelay : Nat) (g : Grabber) :
    Signed (setup s clearDelay g) where
  cells i e hent := by
    obtain ⟨ent, -, rfl⟩ := getElem?_setup hent
    rfl
  notices n hn := by cases hn

/-- From its setup on, a bridge announces registered entities only, each under its id. -/
theorem signed_run (s : Session) (clearDelay : Nat) (g : Grabber) (steps : List Step) :
    Signed ((setup s clearDelay g).run steps) :=
  kept_signed.run (signed_setup s clearDelay g) steps

end AlarmBridge.Bridge
