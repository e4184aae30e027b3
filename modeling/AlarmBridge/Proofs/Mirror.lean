import AlarmBridge.Proofs.Bridge.Muted
import AlarmBridge.Proofs.ChangeLog

/-! Polled sensors and cameras mirror the records.  The record of a device is at every moment what
the latest of the dumps taken over so far that tells of it says of it last.  Refreshing writes this
to each entity that follows it and announces these in the order of registration, so that after a
poll each shows what the latest dump to mention it said; a poll that cannot be read changes
nothing. -/

set_option autoImplicit false

namespace AlarmBridge

open Bridge (Step)

namespace Bridge

/-- The dump that a step takes over. -/
def Step.dump? : Step → Option Snapshot
  | .apply next => some next
  | .poll text => (Snapshot.ofText? text).toOption
  | _ => none

/-- The dumps that some steps take over. -/
def dumps (steps : List Step) : List Snapshot := steps.filterMap Step.dump?

end Bridge

open Bridge (dumps)

namespace Snapshot

/-- What the latest of some dumps that tells of a sensor says of it last. -/
def latestSensor? (dumps : List Snapshot) (systemId : UInt64) (serial : String) :
    Option SensorRecord :=
  (dumps.filterMap (·.sensor? systemId serial)).getLast?

/-- What the latest of some dumps that tells of a camera says of it last. -/
def latestCamera? (dumps : List Snapshot) (systemId : UInt64) (serial : String) :
    Option CameraRecord :=
  (dumps.filterMap (·.camera? systemId serial)).getLast?

end Snapshot

/-- The state that some dumps, the latest at the end, give an entity that follows the records. -/
def Entity.shown? (e : Entity) (dumps : List Snapshot) : Option Bool :=
  match e.role with
  | .polled flag =>
    (Snapshot.latestSensor? dumps e.info.systemId e.info.deviceSerial).map flag.read
  | .momentary _ => none
  | .camera _ =>
    (Snapshot.latestCamera? dumps e.info.systemId e.info.deviceSerial).map CameraRecord.isAvailable

@[simp] theorem Entity.shown?_bare (e : Entity) (dumps : List Snapshot) :
    e.bare.shown? dumps = e.shown? dumps := by
  obtain ⟨info, role, cell⟩ := e
  cases role <;> rfl

namespace Session

section

variable {α : Type} (get : Session → Option α) (said : Snapshot → Option α)

theorem get_after
    (happly : ∀ s next, get (s.apply next) = (get s).map fun old => (said next).getD old)
    (hstate : ∀ s id state, get (s.setState id state) = get s) {s : Session} {r : α}
    (hr : get s = some r) (step : Step) :
    get (s.after step) = some ((step.dump?.bind said).getD r) := by
  have htake : ∀ next, get (s.apply next) = some ((said next).getD r) := by
    intro next
    rw [happly, hr]
    rfl
  cases step with
  | apply next => exact htake next
  | poll text =>
    cases htext : Snapshot.ofText? text with
    | ok next => simpa [after, Step.dump?, htext, Except.toOption] using htake next
    | error fault => simpa [after, Step.dump?, htext, Except.toOption] using hr
  | setState id state => exact (hstate s id state).trans hr
  | _ => exact hr

/-- A record that is taken from every dump that tells of it is what the latest of these says. -/
theorem get_foldl_after
    (happly : ∀ s next, get (s.apply next) = (get s).map fun old => (said next).getD old)
    (hstate : ∀ s id state, get (s.setState id state) = get s) {s : Session} {r : α}
    (hr : get s = some r) (steps : List Step) :
    get (steps.foldl after s) = some (((dumps steps).filterMap said).getLast?.getD r) := by
  induction steps generalizing s r with
  | nil => exact hr
  | cons step steps ih =>
    rw [List.foldl_cons, ih (get_after get said happly hstate hr step)]
    unfold dumps
    cases hdump : step.dump? with
    | none => simp [hdump]
    | some next => cases hsaid : said next <;> simp [hdump, hsaid, List.getLast?_cons]

end

/-- From its first dump on, a session has of a sensor what the latest dump to tell of it said. -/
theorem sensor?_foldl_after {entryId : String} {first : Snapshot} {systemId : UInt64}
    {serial : String} {r : SensorRecord}
    (hr : (ofSnapshot entryId first).sensor? systemId serial = some r) (steps : List Step) :
    ∃ latest, (steps.foldl after (ofSnapshot entryId first)).sensor? systemId serial = some latest ∧
      Snapshot.latestSensor? (first :: dumps steps) systemId serial = some latest := by
  refine ⟨_, get_foldl_after (sensor? · systemId serial) (·.sensor? systemId serial) ?_ ?_ hr steps,
    ?_⟩
  · exact fun s next => (devices_apply s next systemId serial).1
  · exact fun s id state => (devices_setState s id state systemId serial).1
  · simp [Snapshot.latestSensor?, sensor?_ofSnapshot hr, List.getLast?_cons]

theorem camera?_foldl_after {entryId : String} {first : Snapshot} {systemId : UInt64}
    {serial : String} {r : CameraRecord}
    (hr : (ofSnapshot entryId first).camera? systemId serial = some r) (steps : List Step) :
    ∃ latest, (steps.foldl after (ofSnapshot entryId first)).camera? systemId serial = some latest ∧
      Snapshot.latestCamera? (first :: dumps steps) systemId serial = some latest := by
  refine ⟨_, get_foldl_after (camera? · systemId serial) (·.camera? systemId serial) ?_ ?_ hr steps,
    ?_⟩
  · exact fun s next => (devices_apply s next systemId serial).2
  · exact fun s id state => (devices_setState s id state systemId serial).2
  · simp [Snapshot.latestCamera?, camera?_ofSnapshot hr, List.getLast?_cons]

/-- The records give an entity that follows them what the latest dump to tell of its device said. -/
theorem reading?_foldl_after {entryId : String} {first : Snapshot} {e : Entity} {value : Bool}
    (h : e.reading? (ofSnapshot entryId first) = some value) (steps : List Step) :
    ∃ shown, e.reading? (steps.foldl after (ofSnapshot entryId first)) = some shown ∧
      e.shown? (first :: dumps steps) = some shown := by
  obtain ⟨info, role, cell⟩ := e
  cases role with
  | polled flag =>
    obtain ⟨r, hr, -⟩ := Option.map_eq_some_iff.mp h
    obtain ⟨latest, hnow, hlatest⟩ := sensor?_foldl_after hr steps
    exact ⟨flag.read latest, congrArg (Option.map flag.read) hnow,
      congrArg (Option.map flag.read) hlatest⟩
  | momentary kind => cases h
  | camera image =>
    obtain ⟨r, hr, -⟩ := Option.map_eq_some_iff.mp h
    obtain ⟨latest, hnow, hlatest⟩ := camera?_foldl_after hr steps
    exact ⟨latest.isAvailable, congrArg (Option.map CameraRecord.isAvailable) hnow,
      congrArg (Option.map CameraRecord.isAvailable) hlatest⟩

end Session

/-- An entity with the state that the records give it, if it follows them. -/
def Entity.refreshed (e : Entity) (s : Session) : Entity :=
  match e.reading? s with
  | none => e
  | some value => e.write value

theorem Entity.bare_refreshed (e : Entity) (s : Session) : (e.refreshed s).bare = e.bare := by
  unfold refreshed
  split <;> rfl

theorem Entity.announcedAs_refreshed (e : Entity) (s : Session) :
    (e.refreshed s).cell.announcedAs = e.cell.announcedAs := by
  unfold refreshed
  split
  · rfl
  · exact e.cell.announcedAs_write _

namespace Bridge

/-- What the entity at a place announces of its state, if it follows the records. -/
def report? (b : Bridge) (i : Nat) : Option Notice :=
  b.entities[i]?.bind fun e => (e.reading? b.session).bind fun _ =>
    (e.cell.change? (.ofMillis b.now)).map (⟨i, ·⟩)

variable {b : Bridge}

theorem getElem?_refreshEntity (b : Bridge) (i j : Nat) :
    (b.refreshEntity i).entities[j]? =
      if j = i then b.entities[j]?.map (·.refreshed b.session) else b.entities[j]? := by
  unfold refreshEntity
  split
  · next hnone =>
    split
    · next hij =>
      subst hij
      cases hent : b.entities[j]? with
      | none => rfl
      | some e =>
        have hreading : e.reading? b.session = none := by simpa [hent] using hnone
        simp [Entity.refreshed, hreading]
    · rfl
  · next value hvalue =>
    obtain ⟨e, hent, hreading⟩ := Option.bind_eq_some_iff.mp hvalue
    rw [write, entities_announce, modify, List.getElem?_modify]
    by_cases hij : j = i
    · subst hij
      simp [hent, Entity.refreshed, hreading]
    · simp [hij, Ne.symm hij]

theorem report?_refreshEntity_of_ne {i j : Nat} (h : j ≠ i) :
    (b.refreshEntity i).report? j = b.report? j := by
  have hbare := bare_refreshEntity b i
  have hsession : (b.refreshEntity i).session = b.session := (congrArg Bridge.session hbare :)
  have hnow : (b.refreshEntity i).now = b.now := (congrArg Bridge.now hbare :)
  unfold report?
  rw [getElem?_refreshEntity, if_neg h, hsession, hnow]

theorem outbox_announce (h : b.listening = true) (i : Nat) :
    (b.announce i).outbox = b.outbox ++ (b.entities[i]?.bind fun e =>
      (e.cell.change? (.ofMillis b.now)).map (⟨i, ·⟩)).toList := by
  unfold announce
  cases b.entities[i]? with
  | none => simp
  | some e =>
    rw [Option.bind_some, Option.bind_some]
    cases e.cell.change? (.ofMillis b.now) <;> simp [h]

/-- Refreshing an entity announces the state it then has, if it follows the records. -/
theorem outbox_refreshEntity (h : b.listening = true) (i : Nat) :
    (b.refreshEntity i).outbox = b.outbox ++ ((b.refreshEntity i).report? i).toList := by
  unfold refreshEntity
  cases hreading : b.entities[i]?.bind (·.reading? b.session) with
  | none =>
    have hnone : b.report? i = none := by
      unfold report?
      cases hent : b.entities[i]? with
      | none => rfl
      | some e =>
        have he : e.reading? b.session = none := by simpa [hent] using hreading
        simp [he]
    simp [hnone]
  | some value =>
    obtain ⟨e, hent, he⟩ := Option.bind_eq_some_iff.mp hreading
    have hwritten : (b.modify i (·.write value)).entities[i]? = some (e.write value) := by
      rw [modify, List.getElem?_modify_eq, hent]
      rfl
    have hbare := bare_announce (b.modify i (·.write value)) i
    have hsession : ((b.modify i (·.write value)).announce i).session = b.session :=
      (congrArg Bridge.session hbare :)
    have hnow : ((b.modify i (·.write value)).announce i).now = b.now :=
      (congrArg Bridge.now hbare :)
    have hsame : (e.write value).reading? b.session = some value := he
    have hreport : (b.write i value).report? i =
        ((e.write value).cell.change? (.ofMillis b.now)).map (⟨i, ·⟩) := by
      rw [report?, write, entities_announce, hwritten, hsession, hnow, Option.bind_some, hsame,
        Option.bind_some]
    have hannounce := outbox_announce (b := b.modify i (·.write value)) h i
    rw [hwritten, Option.bind_some] at hannounce
    rw [hreport]
    exact hannounce

theorem getElem?_foldl_refreshEntity (b : Bridge) {is : List Nat} (hnodup : is.Nodup) (j : Nat) :
    (is.foldl refreshEntity b).entities[j]? =
      if j ∈ is then b.entities[j]?.map (·.refreshed b.session) else b.entities[j]? := by
  induction is using List.reverseRecOn with
  | nil => simp
  | append_singleton is i ih =>
    obtain ⟨hnodup, -, hdisjoint⟩ := List.nodup_append.mp hnodup
    have hi : i ∉ is := fun hi => hdisjoint i hi i (List.mem_singleton_self i) rfl
    have hsession : (is.foldl refreshEntity b).session = b.session :=
      (congrArg Bridge.session (bare_foldl bare_refreshEntity b is) :)
    rw [List.foldl_append, List.foldl_cons, List.foldl_nil, getElem?_refreshEntity, ih hnodup,
      hsession]
    by_cases hj : j = i
    · subst hj
      simp [hi]
    · simp [hj]

/-- Entities refreshed in turn are announced in turn, each with the state it has in the end. -/
theorem outbox_foldl_refreshEntity (h : b.listening = true) {is : List Nat} (hnodup : is.Nodup) :
    (is.foldl refreshEntity b).outbox =
      b.outbox ++ is.filterMap (is.foldl refreshEntity b).report? := by
  -- from the end: refreshing the last one leaves what the others say of themselves
  induction is using List.reverseRecOn with
  | nil => simp
  | append_singleton is i ih =>
    obtain ⟨hnodup, -, hdisjoint⟩ := List.nodup_append.mp hnodup
    have hlistening : (is.foldl refreshEntity b).listening = true :=
      (congrArg Bridge.listening (bare_foldl bare_refreshEntity b is) : _).trans h
    have hearlier : is.filterMap ((is.foldl refreshEntity b).refreshEntity i).report? =
        is.filterMap (is.foldl refreshEntity b).report? :=
      List.filterMap_congr fun j hj =>
        report?_refreshEntity_of_ne (hdisjoint j hj i (List.mem_singleton_self i))
    rw [List.foldl_append, List.foldl_cons, List.foldl_nil, outbox_refreshEntity hlistening,
      ih hnodup, List.filterMap_append, hearlier, List.append_assoc]
    cases hreport : ((is.foldl refreshEntity b).refreshEntity i).report? i <;> simp [hreport]

theorem getElem?_refresh (b : Bridge) (i : Nat) :
    b.refresh.entities[i]? = b.entities[i]?.map (·.refreshed b.session) := by
  rw [refresh, getElem?_foldl_refreshEntity b List.nodup_range]
  split
  · rfl
  · next hi =>
    have hnone : b.entities[i]? = none :=
      List.getElem?_eq_none (Nat.not_lt.mp (List.mem_range.not.mp hi))
    rw [hnone]
    rfl

/-- The announcement of the present state of the entity at a place, if it is no momentary sensor. -/
def status? (b : Bridge) (i : Nat) : Option Notice :=
  b.entities[i]?.bind fun e =>
    if e.isMomentary then none
    else some ⟨i, ⟨e.info.uniqueId, e.cell.value, e.cell.version, .ofMillis b.now⟩⟩

/-- The announcements of the present states of all polled sensors and cameras, in the order of
registration. -/
def statuses (b : Bridge) : List Notice := (List.range b.entities.length).filterMap b.status?

/-- Where every entity is announced under its id and every one that follows a record has it,
refreshing announces the states that the polled sensors and the cameras then have. -/
theorem outbox_refresh (h : ∀ (i : Nat) (e : Entity), b.entities[i]? = some e →
      b.listening = true ∧ e.cell.announcedAs = some e.info.uniqueId ∧
        (e.isMomentary = false → ∃ value, e.reading? b.session = some value)) :
    b.refresh.outbox = b.outbox ++ b.refresh.statuses := by
  have hbare := bare_refresh b
  have hlength : b.refresh.entities.length = b.entities.length := by
    have hmap := congrArg (List.length ∘ Bridge.entities) hbare
    simpa [bare] using hmap
  have hsession : b.refresh.session = b.session := (congrArg Bridge.session hbare :)
  cases hnil : b.entities with
  | nil =>
    have hsame : b.refresh = b := by rw [refresh, hnil]; rfl
    simp [hsame, statuses, hnil]
  | cons e rest =>
    have hlistening : b.listening = true := (h 0 e (by rw [hnil]; rfl)).1
    have hreports : (List.range b.entities.length).filterMap b.refresh.report? =
        (List.range b.entities.length).filterMap b.refresh.status? := by
      refine List.filterMap_congr fun i _ => ?_
      rw [report?, status?, getElem?_refresh, hsession]
      cases hent : b.entities[i]? with
      | none => rfl
      | some e =>
        obtain ⟨-, hannounced, hrecord⟩ := h i e hent
        have hcell := (e.announcedAs_refreshed b.session).trans hannounced
        have hbare := e.bare_refreshed b.session
        have hinfo : (e.refreshed b.session).info = e.info := (congrArg Entity.info hbare :)
        have hreading : (e.refreshed b.session).reading? b.session = e.reading? b.session := by
          rw [← Entity.reading?_bare, hbare, Entity.reading?_bare]
        have hmomentary : (e.refreshed b.session).isMomentary = e.isMomentary := by
          rw [← Entity.isMomentary_bare, hbare, Entity.isMomentary_bare]
        rw [Option.map_some, Option.bind_some, Option.bind_some, hreading, hmomentary, hinfo,
          StateCell.change?, hcell]
        cases hkind : e.isMomentary with
        | true => rw [Entity.reading?_of_isMomentary hkind]; rfl
        | false =>
          obtain ⟨value, hvalue⟩ := hrecord hkind
          rw [hvalue]
          rfl
    rw [statuses, hlength, ← hreports]
    exact outbox_foldl_refreshEntity hlistening List.nodup_range

variable {s : Session} {clearDelay : Nat} {g : Grabber} {steps : List Step} {i : Nat} {e : Entity}

/-- A polled sensor or camera has its record at every moment. -/
theorem reading?_run (hs : s.Keyed)
    (he : ((setup s clearDelay g).run steps).entities[i]? = some e)
    (hkind : e.isMomentary = false) :
    ∃ value, e.reading? s = some value := by
  obtain ⟨ent, hent, hbare⟩ := origin_run he
  obtain ⟨ent, hmem, rfl⟩ := getElem?_setup hent
  have hreading : ent.reading? s = e.reading? s := by
    rw [← Entity.reading?_bare e, ← hbare]
    exact (Entity.reading?_bare _ s).symm
  have hmomentary : ent.isMomentary = e.isMomentary := by
    rw [← Entity.isMomentary_bare e, ← hbare]
    exact (Entity.isMomentary_bare _).symm
  rw [← hreading]
  exact reading?_of_mem_entitiesOf hs hmem (hmomentary.trans hkind)

theorem step_poll_of_ok {text : List Char} {next : Snapshot} (hsettled : Settled b)
    (htext : Snapshot.ofText? text = .ok next) :
    b.step (.poll text) = ((b.apply next).refresh, .done) := by
  have hact : b.act (.poll text) = ((b.apply next).refresh, .done) := by simp only [act, htext]
  have hbare := bare_refresh (b.apply next)
  have hagenda : (b.apply next).refresh.agenda = b.agenda := (congrArg Bridge.agenda hbare :)
  have hnow : (b.apply next).refresh.now = b.now := (congrArg Bridge.now hbare :)
  have hafter : Settled (b.apply next).refresh := by
    unfold Settled
    rw [hagenda, hnow]
    exact hsettled
  rw [step, hact]
  exact congrArg (·, Answer.done) hafter.settle

theorem step_poll_of_error {text : List Char} {fault : Json.Fault} (hsettled : Settled b)
    (htext : Snapshot.ofText? text = .error fault) :
    b.step (.poll text) = (b, .failed (.snapshot (.malformed fault))) := by
  have hact : b.act (.poll text) = (b, .failed (.snapshot (.malformed fault))) := by
    simp only [act, htext]
  rw [step, hact]
  exact congrArg (·, Answer.failed (.snapshot (.malformed fault))) hsettled.settle

/-- With a further dump taken over, the records give an entity that follows them what the latest of
all dumps to tell of its device says. -/
theorem reading?_apply_run {entryId : String} {first : Snapshot}
    (he : ((setup (.ofSnapshot entryId first) clearDelay g).run steps).entities[i]? = some e)
    (hkind : e.isMomentary = false) (next : Snapshot) :
    ∃ shown, e.reading? (((setup (.ofSnapshot entryId first) clearDelay g).run steps).apply
        next).session = some shown ∧
      e.shown? (first :: dumps steps ++ [next]) = some shown := by
  have hrun := session_run (setup (.ofSnapshot entryId first) clearDelay g) steps
  have hsession :
      (((setup (.ofSnapshot entryId first) clearDelay g).run steps).apply next).session =
        (steps ++ [Step.apply next]).foldl Session.after (.ofSnapshot entryId first) := by
    show ((setup (.ofSnapshot entryId first) clearDelay g).run steps).session.apply next = _
    rw [List.foldl_append, hrun]
    rfl
  have hdumps : dumps (steps ++ [.apply next]) = dumps steps ++ [next] := List.filterMap_append
  obtain ⟨value, hvalue⟩ := reading?_run (Session.keyed_ofSnapshot entryId first) he hkind
  have hlatest := Session.reading?_foldl_after hvalue (steps ++ [.apply next])
  rw [hdumps, ← hsession] at hlatest
  exact hlatest

/-- After every run, a poll of a dump that can be read leaves each polled sensor and camera on
exactly if the latest dump to tell of its device, this one and the first one included, says so last;
while announcements are received, it announces each of these once, in the order of registration, and
nothing else.  A poll of a text that cannot be read changes nothing. -/
theorem polled_entities_mirror (entryId : String) (first : Snapshot) (clearDelay : Nat)
    (g : Grabber) (steps : List Step) (text : List Char) :
    let start := setup (.ofSnapshot entryId first) clearDelay g
    let b := start.run steps
    let after := (b.step (.poll text)).1
    (∀ next, Snapshot.ofText? text = .ok next →
      (∀ (i : Nat) (e : Entity), start.entities[i]? = some e → e.isMomentary = false →
        ∃ e' : Entity, after.entities[i]? = some e' ∧ e'.info = e.info ∧
          e.shown? (first :: dumps steps ++ [next]) = some e'.cell.value) ∧
      (.close ∉ steps → after.outbox = b.outbox ++ after.statuses)) ∧
    ∀ fault, Snapshot.ofText? text = .error fault →
      b.step (.poll text) = (b, .failed (.snapshot (.malformed fault))) := by
  intro start b after
  have hstart : Settled start := rfl
  have hsettled : Settled b := settled_run hstart steps
  refine ⟨fun next htext => ?_, fun fault htext => step_poll_of_error hsettled htext⟩
  have hafter : after = (b.apply next).refresh := congrArg Prod.fst (step_poll_of_ok hsettled htext)
  constructor
  · intro i ent hent hkind
    obtain ⟨e, he, hbare⟩ := entity_run hent steps
    have hmomentary : e.isMomentary = false := by
      rw [← Entity.isMomentary_bare, hbare, Entity.isMomentary_bare, hkind]
    obtain ⟨shown, hshown, hlatest⟩ := reading?_apply_run he hmomentary next
    refine ⟨e.write shown, ?_, (congrArg Entity.info hbare :), ?_⟩
    · rw [hafter, getElem?_refresh]
      show b.entities[i]?.map _ = _
      rw [he, Option.map_some, Entity.refreshed, hshown]
    · rw [← Entity.shown?_bare, ← hbare, Entity.shown?_bare, hlatest]
      exact congrArg some (StateCell.value_write e.cell shown).symm
  · intro hopen
    rw [hafter]
    refine outbox_refresh (b := b.apply next) fun i e he => ?_
    obtain ⟨hlistening, hannounced⟩ := announced_run hopen he
    refine ⟨hlistening, hannounced, fun hkind => ?_⟩
    obtain ⟨shown, hshown, -⟩ := reading?_apply_run he hkind next
    exact ⟨shown, hshown⟩

end Bridge

end AlarmBridge
