import AlarmBridge.Mqtt
import AlarmBridge.Proofs.Bridge.Outbox
import AlarmBridge.Proofs.ChangeLog
import AlarmBridge.Proofs.Identity

/-! What a publisher makes of the announcements of a bridge.  A change whose id is registered
becomes one retained message if the client takes its topic, and nothing becomes of any other; so the
messages on the topic of an entity are its announcements, and the last of them shows its present
state. -/

set_option autoImplicit false

namespace AlarmBridge

/-- The value of a member of an object. -/
def Json.Value.member? (name : String) : Json.Value → Option Json.Value
  | .object members => members.lookup name
  | _ => none

namespace Mqtt

/-- A text without the wildcards of topics. -/
def WildcardFree (text : String) : Prop := '+' ∉ text.toList ∧ '#' ∉ text.toList

instance (text : String) : Decidable (WildcardFree text) := inferInstanceAs (Decidable (_ ∧ _))

/-- The retained message that a change of an entity becomes. -/
def Message.ofChange (topicBase : String) (info : EntityInfo) (c : StateChange) : Message :=
  ⟨stateTopic topicBase c.uniqueId, .atLeastOnce, true, statePayload info c⟩

/-- A message that the broker keeps and that shows the state, the version and the serial of an
entity. -/
structure Message.Shows (m : Message) (e : Entity) : Prop where
  retained : m.retained = true
  state : m.payload.member? "state" = some (.text (if e.cell.value then "on" else "off"))
  version : (m.payload.member? "attributes").bind (·.member? "version") =
    some (.number e.cell.version.toNat)
  serial : (m.payload.member? "attributes").bind (·.member? "serial") =
    some (.text e.info.deviceSerial)

theorem Message.shows_ofChange {topicBase : String} {c : StateChange} {e : Entity}
    (h : c.stamp = (e.cell.value, e.cell.version)) : (ofChange topicBase e.info c).Shows e := by
  obtain ⟨hvalue, hversion⟩ : c.isOn = e.cell.value ∧ c.version = e.cell.version := Prod.mk.inj h
  refine ⟨rfl, ?_, ?_, rfl⟩
  · rw [← hvalue]
    rfl
  · rw [← hversion]
    rfl

namespace Publisher

/-- A publisher with another client, which takes messages on certain topics. -/
def withClient (p : Publisher) (client : String → Bool) : Publisher := { p with takes := client }

variable {p : Publisher} {info : EntityInfo} {uniqueId : String}

theorem accepts_iff {topic : String} : accepts topic = true ↔ WildcardFree topic := by
  rw [WildcardFree, accepts, Bool.not_eq_true', ← Bool.not_eq_true, List.any_eq_true, ← not_or]
  refine not_congr ⟨?_, ?_⟩
  · rintro ⟨c, hc, hwildcard⟩
    rcases (by simpa [Config.isWildcard] using hwildcard) with rfl | rfl
    · exact .inl hc
    · exact .inr hc
  · rintro (hplus | hhash)
    · exact ⟨'+', hplus, rfl⟩
    · exact ⟨'#', hhash, rfl⟩

/-- A change of a known id is published on the topic of the id if the client takes it. -/
theorem publish_of_get? {c : StateChange} (h : p.entities.get? c.uniqueId = some info) :
    p.publish c = if p.takes (stateTopic p.topicBase c.uniqueId) then
        .ok (.ofChange p.topicBase info c)
      else .error ⟨.warn, .mqtt,
        "[MQTT] " ++ (Failure.mqtt (.rejected (stateTopic p.topicBase c.uniqueId))).message⟩ := by
  rw [publish, h]
  rfl

theorem toOption_publish (p : Publisher) (c : StateChange) : (p.publish c).toOption =
    ((p.entities.get? c.uniqueId).filter fun _ => p.takes (stateTopic p.topicBase c.uniqueId)).map
      (.ofChange p.topicBase · c) := by
  cases hinfo : p.entities.get? c.uniqueId with
  | none =>
    rw [publish, hinfo]
    rfl
  | some info =>
    rw [publish_of_get? hinfo]
    cases htakes : p.takes (stateTopic p.topicBase c.uniqueId) <;> simp [Except.toOption]

/-- A message is on the topic of the id of its change. -/
theorem topic_of_publish {c : StateChange} {m : Message} (h : (p.publish c).toOption = some m) :
    m.topic = stateTopic p.topicBase c.uniqueId := by
  rw [toOption_publish] at h
  obtain ⟨info, -, rfl⟩ := Option.map_eq_some_iff.mp h
  rfl

theorem messages_cons (p : Publisher) (c : StateChange) (cs : List StateChange) :
    p.messages (c :: cs) = (p.publish c).toOption.toList ++ p.messages cs := by
  unfold messages
  cases hpublish : (p.publish c).toOption <;> simp [hpublish]

/-- The messages on the topic of a known id that the client takes are the changes of that id. -/
theorem messages_on (hinfo : p.entities.get? uniqueId = some info)
    (htakes : p.takes (stateTopic p.topicBase uniqueId) = true) (cs : List StateChange) :
    (p.messages cs).filter (·.topic = stateTopic p.topicBase uniqueId) =
      (cs.filter (·.uniqueId = uniqueId)).map (.ofChange p.topicBase info) := by
  induction cs with
  | nil => rfl
  | cons c cs ih =>
    rw [messages_cons, List.filter_append, ih]
    by_cases hc : c.uniqueId = uniqueId
    · have hpublish : (p.publish c).toOption = some (.ofChange p.topicBase info c) := by
        rw [toOption_publish, hc, hinfo, htakes]
        rfl
      rw [hpublish]
      simp [hc, Message.ofChange]
    · have hnone : (p.publish c).toOption.toList.filter
          (·.topic = stateTopic p.topicBase uniqueId) = [] := by
        refine List.filter_eq_nil_iff.mpr fun m hm htopic => hc ?_
        have hm := topic_of_publish (Option.mem_toList.mp hm)
        exact Bridge.stateTopic_injective p.topicBase (hm.symm.trans (of_decide_eq_true htopic))
      rw [hnone]
      simp [hc]

end Publisher

end Mqtt

namespace Bridge

open Mqtt

variable {b : Bridge} {i : Nat} {e : Entity}

/-- No other entity has the id of the entity `i`. -/
def Unshared (b : Bridge) (i : Nat) (e : Entity) : Prop :=
  ∀ (j : Nat) e', b.entities[j]? = some e' → e'.info.uniqueId = e.info.uniqueId → j = i

theorem unshared_of_nodup (h : (b.entities.map (·.info.uniqueId)).Nodup)
    (he : b.entities[i]? = some e) : b.Unshared i e := by
  intro j e' he' hid
  have hj := List.getElem?_map (f := fun e : Entity => e.info.uniqueId) (l := b.entities) (i := j)
  have hi := List.getElem?_map (f := fun e : Entity => e.info.uniqueId) (l := b.entities) (i := i)
  rw [he', Option.map_some, hid] at hj
  rw [he, Option.map_some] at hi
  obtain ⟨hlt, -⟩ := List.getElem?_eq_some_iff.mp hj
  exact (List.getElem?_inj hlt h).mp (hj.trans hi.symm)

/-- The announcements that bear an id that no other entity has are those of the entity. -/
theorem Signed.filter_uniqueId (h : Signed b) (he : b.entities[i]? = some e)
    (hunshared : b.Unshared i e) :
    (b.outbox.map (·.change)).filter (·.uniqueId = e.info.uniqueId) = b.sentBy i := by
  have hsource : ∀ n ∈ b.outbox,
      decide (n.change.uniqueId = e.info.uniqueId) = decide (n.source = i) := by
    intro n hn
    obtain ⟨e', he', hid⟩ := h.notices n hn
    rw [hid, decide_eq_decide]
    constructor
    · exact hunshared n.source e' he'
    · rintro rfl
      rw [Option.some.inj (he'.symm.trans he)]
  rw [List.filter_map]
  exact congrArg (List.map Notice.change) (List.filter_congr hsource)

/-- A publisher knows every entity whose id no other has. -/
theorem Unshared.get?_publisher (hunshared : b.Unshared i e) (he : b.entities[i]? = some e)
    (topicBase : String) :
    (Publisher.of topicBase (b.entities.map (·.info))).entities.get? e.info.uniqueId =
      some e.info := by
  refine Roster.get?_ofList_of_unique (List.mem_map_of_mem (List.mem_of_getElem? he)) ?_
  intro info hinfo hid
  obtain ⟨e', he', rfl⟩ := List.mem_map.mp hinfo
  obtain ⟨j, hj⟩ := List.mem_iff_getElem?.mp he'
  obtain rfl := hunshared j e' hj hid
  rw [Option.some.inj (hj.symm.trans he)]

/-- The messages on the topic of an entity whose id no other has are its announcements. -/
theorem Signed.messages_on (h : Signed b) (he : b.entities[i]? = some e)
    (hunshared : b.Unshared i e) {topicBase : String} {client : String → Bool}
    (hclient : client (stateTopic topicBase e.info.uniqueId) = true) :
    (((Publisher.of topicBase (b.entities.map (·.info))).withClient client).messages
        (b.outbox.map (·.change))).filter (·.topic = stateTopic topicBase e.info.uniqueId) =
      (b.sentBy i).map (.ofChange topicBase e.info) := by
  rw [← h.filter_uniqueId he hunshared]
  exact Publisher.messages_on (p := (Publisher.of topicBase _).withClient client)
    (hunshared.get?_publisher he topicBase) hclient _

/-- Publishing everything first leaves announcements of every entity. -/
theorem sentBy_run_publishAll (s : Session) (clearDelay : Nat) (g : Grabber) (steps : List Step)
    {ent : Entity} (hent : (setup s clearDelay g).entities[i]? = some ent) :
    ((setup s clearDelay g).run (.publishAll :: steps)).sentBy i ≠ [] := by
  have htrack := (follows_start hent rfl rfl).publishAll.track
  have hsay : Track.replay ⟨ent.cell, true, []⟩ [((setup s clearDelay g).now, .publish)] =
      ⟨ent.cell, true, [⟨ent.info.uniqueId, ent.cell.value, ent.cell.version, .ofMillis 0⟩]⟩ :=
    Track.announce_eq (t := ⟨ent.cell, true, []⟩) rfl (by rw [cell_setup hent]; rfl) 0
  rw [track] at htrack
  obtain ⟨e, -, hseen⟩ := Option.map_eq_some_iff.mp htrack
  have hsent : (setup s clearDelay g).publishAll.sentBy i =
      [⟨ent.info.uniqueId, ent.cell.value, ent.cell.version, .ofMillis 0⟩] :=
    congrArg Track.sent (hseen.trans hsay)
  have hlater : (setup s clearDelay g).publishAll.outbox <+:
      ((setup s clearDelay g).run (.publishAll :: steps)).outbox :=
    (kept_outbox _).run ((kept_outbox _).runUntil List.prefix_rfl _) steps
  have hsentLater : (setup s clearDelay g).publishAll.sentBy i <+:
      ((setup s clearDelay g).run (.publishAll :: steps)).sentBy i :=
    (hlater.filter _).map _
  intro hnone
  rw [hnone, hsent] at hsentLater
  simp at hsentLater

/-- After publishing everything first, the last announcement of an entity is of its present
state. -/
theorem last_announcement {s : Session} {clearDelay : Nat} {g : Grabber} {steps : List Step}
    (hopen : .close ∉ steps)
    (he : ((setup s clearDelay g).run (.publishAll :: steps)).entities[i]? = some e) :
    ∃ c, (((setup s clearDelay g).run (.publishAll :: steps)).sentBy i).getLast? = some c ∧
      c.stamp = (e.cell.value, e.cell.version) := by
  obtain ⟨ent, hent, -⟩ := origin_run he
  have hlistening : .close ∉ Step.publishAll :: steps := by simpa using hopen
  obtain ⟨initial, acts, hfaithful⟩ := faithful_run hlistening he
  have hsome := List.getLast?_eq_some_getLast (sentBy_run_publishAll s clearDelay g steps hent)
  have hlast := hfaithful.last
  rw [List.getLast?_cons, List.getLast?_map, hsome] at hlast
  exact ⟨_, hsome, Option.some.inj hlast⟩

theorem infos_run (b : Bridge) (steps : List Step) :
    (b.run steps).entities.map (·.info) = b.entities.map (·.info) := by
  have hinfo : ∀ es : List Entity, (es.map Entity.bare).map (·.info) = es.map (·.info) := by
    intro es
    rw [List.map_map]
    rfl
  rw [← hinfo, ← hinfo b.entities]
  exact congrArg (List.map Entity.info) (identities_run b steps)

/-- Of every change whose id is registered and whose topic the client takes, a publisher makes one
retained message of the last entity registered with that id, in the order received, and of any other
change none.  So if the client takes all topics without wildcards, then after every run that begins
with publishing everything, the messages on such a topic of an entity whose id no other has are its
announcements, and the last of them shows its present state. -/
theorem published_states_are_current (topicBase : String) (client : String → Bool) :
    (∀ (infos : List EntityInfo) (changes : List StateChange),
      ((Publisher.of topicBase infos).withClient client).messages changes =
        changes.filterMap fun c =>
          ((infos.filter (·.uniqueId = c.uniqueId)).getLast?.filter fun _ =>
            client (stateTopic topicBase c.uniqueId)).map (.ofChange topicBase · c)) ∧
    ((∀ topic, WildcardFree topic → client topic = true) →
      ∀ (s : Session) (clearDelay : Nat) (g : Grabber) (steps : List Step), .close ∉ steps →
        let b := (setup s clearDelay g).run (.publishAll :: steps)
        let infos := (setup s clearDelay g).entities.map (·.info)
        let messages := ((Publisher.of topicBase infos).withClient client).messages
          (b.outbox.map (·.change))
        ∀ (i : Nat) e, b.entities[i]? = some e → b.Unshared i e →
          let topic := stateTopic topicBase e.info.uniqueId
          WildcardFree topic →
            messages.filter (·.topic = topic) =
              (b.sentBy i).map (.ofChange topicBase e.info) ∧
            ∃ m, (messages.filter (·.topic = topic)).getLast? = some m ∧ m.Shows e) := by
  constructor
  · intro infos changes
    refine List.filterMap_congr fun c _ => ?_
    rw [Publisher.toOption_publish]
    exact congrArg (Option.map (Message.ofChange topicBase · c) ∘ Option.filter _)
      (Roster.get?_ofList EntityInfo.uniqueId infos c.uniqueId)
  · intro hclient s clearDelay g steps hopen b infos messages i e he hunshared topic hfree
    have hinfos : b.entities.map (·.info) = infos := infos_run _ (.publishAll :: steps)
    have hmessages : messages.filter (·.topic = topic) =
        (b.sentBy i).map (.ofChange topicBase e.info) := by
      have hsigned : Signed b := signed_run s clearDelay g (.publishAll :: steps)
      have hon := hsigned.messages_on he hunshared (hclient topic hfree)
      rwa [hinfos] at hon
    refine ⟨hmessages, ?_⟩
    obtain ⟨c, hlast, hstamp⟩ := last_announcement hopen he
    rw [hmessages, List.getLast?_map, hlast]
    exact ⟨_, rfl, Message.shows_ofChange hstamp⟩

/-- A door that is found closed after it was published open is last published closed. -/
theorem published_states_are_current_oneDoor :
    let bridge := setup (.ofSnapshot "home" (oneDoor true)) 30000 ⟨[], [], []⟩
    let b := bridge.run [.publishAll, .apply (oneDoor false), .refresh]
    let messages := ((Publisher.of "simplisafe" (bridge.entities.map (·.info))).withClient
      Publisher.accepts).messages (b.outbox.map (·.change))
    ∃ e m, b.entities[0]? = some e ∧ e.cell.value = false ∧ e.cell.version = 1 ∧
      (messages.filter (·.topic = "simplisafe/s1/state")).getLast? = some m ∧ m.Shows e := by
  intro bridge b messages
  let e : Entity := { Entity.triggered 1 ⟨"s1", "Door", .entry, true, false⟩ .door with
    cell := ⟨false, 1, some "s1"⟩ }
  have he : b.entities[0]? = some e := by decide +kernel
  have hunshared : b.Unshared 0 e := unshared_of_nodup (by decide +kernel) he
  obtain ⟨-, m, hlast, hshows⟩ :=
    (published_states_are_current "simplisafe" Publisher.accepts).2
      (fun _ => Publisher.accepts_iff.mpr) (.ofSnapshot "home" (oneDoor true)) 30000 ⟨[], [], []⟩
      [.apply (oneDoor false), .refresh] (by simp) 0 e he hunshared (by decide +kernel)
  exact ⟨e, m, he, rfl, rfl, hlast, hshows⟩

end Bridge

end AlarmBridge
