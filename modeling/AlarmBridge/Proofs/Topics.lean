import AlarmBridge.Proofs.Publishing

/-! Which changes are published.  A configuration is only accepted without wildcards in the start of
the topics, and no suffix of an id has one; nobody looks at the serials, which an account may give
any characters.  So a topic has a wildcard exactly if the serial behind the entity has one, and then
every change of the entity is refused. -/

set_option autoImplicit false

namespace AlarmBridge

open Mqtt

namespace Mqtt

theorem wildcardFree_append {a b : String} :
    WildcardFree (a ++ b) ↔ WildcardFree a ∧ WildcardFree b := by
  simp only [WildcardFree, String.toList_append, List.mem_append, not_or]
  tauto

/-- What stands in a topic besides its start and the id has no wildcard. -/
theorem wildcardFree_stateTopic {topicBase uniqueId : String} :
    WildcardFree (stateTopic topicBase uniqueId) ↔
      WildcardFree topicBase ∧ WildcardFree uniqueId := by
  have hslash : WildcardFree "/" := by decide
  have hend : WildcardFree "/state" := by decide
  simp only [stateTopic, toString, wildcardFree_append, hslash, hend, and_true]

end Mqtt

theorem Role.wildcardFree_suffix {role : Role} {suffix : String} (h : role.suffix? = some suffix) :
    WildcardFree suffix := by
  cases role with
  | polled flag => cases flag <;> cases h; decide
  | momentary kind => cases kind <;> cases h <;> decide
  | camera image => cases h; decide

/-- The id of an entity has a wildcard exactly if the serial behind it has one. -/
theorem Entity.Named.wildcardFree_iff {e : Entity} (h : e.Named) :
    WildcardFree e.info.uniqueId ↔ WildcardFree e.info.deviceSerial := by
  have hdash : WildcardFree "-" := by decide
  rw [h]
  cases hsuffix : e.role.suffix? with
  | none => rfl
  | some suffix =>
    simp only [EntityInfo.idOf, toString, wildcardFree_append, hdash,
      Role.wildcardFree_suffix hsuffix, and_true]

/-- Topics of an accepted configuration start without wildcards. -/
theorem Config.wildcardFree_of_validate {c : Config} (h : c.validate = .ok ()) :
    WildcardFree c.mqtt.topicBase := by
  have hfault : c.fault? = none := by
    unfold validate at h
    split at h
    · cases h
    · assumption
  have hbase : ¬(c.mqtt.topicBase.isEmpty ∨ c.mqtt.topicBase.toList.any isWildcard) := by
    intro hbase
    unfold fault? at hfault
    rw [if_pos hbase] at hfault
    split at hfault
    · cases hfault
    · split at hfault
      · cases hfault
      · split at hfault <;> cases hfault
  refine Publisher.accepts_iff.mp ?_
  rw [Publisher.accepts, Bool.not_eq_true', Bool.eq_false_iff]
  exact fun hany => hbase (.inr hany)

namespace Bridge

/-- Of every accepted configuration, every client that takes exactly the topics without wildcards,
every first dump and every run: the topic of an entity has a wildcard exactly if the serial of its
device has one.  What the entity announces becomes a message on that topic if the serial has none,
and is dropped with a line in the log if it has one. -/
theorem published_iff_wildcardFree (c : Config) (hvalid : c.validate = .ok ())
    (client : String → Bool) (hclient : ∀ topic, client topic = true ↔ WildcardFree topic)
    (entryId : String) (first : Snapshot) (clearDelay : Nat) (g : Grabber) (steps : List Step) :
    let bridge := setup (.ofSnapshot entryId first) clearDelay g
    let b := bridge.run steps
    let infos := bridge.entities.map (·.info)
    let publisher := (Publisher.of c.mqtt.topicBase infos).withClient client
    (∀ e ∈ b.entities, WildcardFree (stateTopic c.mqtt.topicBase e.info.uniqueId) ↔
      WildcardFree e.info.deviceSerial) ∧
    ∀ n ∈ b.outbox, ∃ e, b.entities[n.source]? = some e ∧
      let topic := stateTopic c.mqtt.topicBase e.info.uniqueId
      (WildcardFree e.info.deviceSerial → ∃ info ∈ infos, info.uniqueId = e.info.uniqueId ∧
        publisher.publish n.change = .ok ⟨topic, .atLeastOnce, true, statePayload info n.change⟩) ∧
      (¬WildcardFree e.info.deviceSerial → publisher.publish n.change =
        .error ⟨.warn, .mqtt, "[MQTT] " ++ (Failure.mqtt (.rejected topic)).message⟩) := by
  intro bridge b infos publisher
  have htopic : ∀ e ∈ b.entities, WildcardFree (stateTopic c.mqtt.topicBase e.info.uniqueId) ↔
      WildcardFree e.info.deviceSerial := by
    intro e he
    have hidentified : Identified b.entities :=
      identified_run (Session.keyed_ofSnapshot entryId first) clearDelay g steps
    rw [wildcardFree_stateTopic, (hidentified.named e he).wildcardFree_iff]
    exact and_iff_right (Config.wildcardFree_of_validate hvalid)
  refine ⟨htopic, fun n hn => ?_⟩
  have hsigned : Signed b := signed_run (.ofSnapshot entryId first) clearDelay g steps
  obtain ⟨e, he, hid⟩ := hsigned.notices n hn
  have hmem : e.info ∈ infos := by
    have hinfos : b.entities.map (·.info) = infos := infos_run bridge steps
    rw [← hinfos]
    exact List.mem_map_of_mem (List.mem_of_getElem? he)
  obtain ⟨info, hinfo, hsame, hget⟩ := Roster.exists_get?_ofList EntityInfo.uniqueId hmem
  have hpublish := Publisher.publish_of_get? (p := publisher) (hid ▸ hget)
  rw [hid] at hpublish
  have htakes : publisher.takes (stateTopic publisher.topicBase e.info.uniqueId) = true ↔
      WildcardFree e.info.deviceSerial :=
    (hclient _).trans (htopic e (List.mem_of_getElem? he))
  refine ⟨e, he, fun hfree => ⟨info, hinfo, hsame, ?_⟩, fun hwildcard => ?_⟩
  · rw [hpublish, if_pos (htakes.mpr hfree), Message.ofChange, hid]
    rfl
  · rw [hpublish, if_neg (mt htakes.mp hwildcard)]
    rfl

/-- A system with two cameras, one of them with a wildcard in its serial. -/
def wildcardSerial : Snapshot :=
  ⟨"token", [⟨1, 3, .off, [], [⟨"c+1", "Hall", .camera, "online", true, true, true, true⟩,
    ⟨"c2", "Porch", .camera, "online", true, true, true, true⟩]⟩]⟩

/-- The motion sensor of its first camera is announced first, and refused. -/
theorem published_iff_wildcardFree_firstCamera :
    let bridge := setup (.ofSnapshot "home" wildcardSerial) 30000 ⟨[], [], []⟩
    let publisher := Publisher.of "simplisafe" (bridge.entities.map (·.info))
    ∃ n ∈ (bridge.run [.publishAll]).outbox, n.source = 0 ∧ publisher.publish n.change =
      .error ⟨.warn, .mqtt,
        "[MQTT] MQTT error: publish to simplisafe/c+1-motion/state failed"⟩ := by
  intro bridge publisher
  let n : Notice := ⟨0, ⟨"c+1-motion", false, 0, .ofMillis 0⟩⟩
  have hn : n ∈ (bridge.run [.publishAll]).outbox := by decide +kernel
  obtain ⟨e, he, -, hrefused⟩ := (published_iff_wildcardFree (.default none) rfl Publisher.accepts
    (fun _ => Publisher.accepts_iff) "home" wildcardSerial 30000 ⟨[], [], []⟩ [.publishAll]).2 n hn
  have hinfo : (bridge.run [.publishAll]).entities[0]?.map
      (fun e => (e.info.uniqueId, e.info.deviceSerial)) = some ("c+1-motion", "c+1") := by
    decide +kernel
  rw [show (bridge.run [.publishAll]).entities[0]? = some e from he, Option.map_some] at hinfo
  obtain ⟨hid, hserial⟩ := Prod.mk.inj (Option.some.inj hinfo)
  rw [hserial, hid] at hrefused
  exact ⟨n, hn, rfl, hrefused (by decide)⟩

/-- An account may give such a serial where the configuration is accepted: of four states published
two are dropped. -/
theorem wildcard_serial_dropped :
    let bridge := setup (.ofSnapshot "home" wildcardSerial) 30000 ⟨[], [], []⟩
    let changes := (bridge.run [.publishAll]).outbox.map (·.change)
    let publisher := Publisher.of "simplisafe" (bridge.entities.map (·.info))
    (Config.default none).validate = .ok () ∧ (Config.default none).mqtt.topicBase = "simplisafe" ∧
    Snapshot.ofText? wildcardSerial.toJson.render = .ok wildcardSerial ∧
    bridge.entities.map (stateTopic "simplisafe" ·.info.uniqueId) =
      ["simplisafe/c+1-motion/state", "simplisafe/c2-motion/state", "simplisafe/c+1-camera/state",
        "simplisafe/c2-camera/state"] ∧
    (publisher.messages changes).map (·.topic) =
      ["simplisafe/c2-motion/state", "simplisafe/c2-camera/state"] ∧
    (publisher.refusals changes).map (·.text) =
      ["[MQTT] MQTT error: publish to simplisafe/c+1-motion/state failed",
        "[MQTT] MQTT error: publish to simplisafe/c+1-camera/state failed"] :=
  ⟨rfl, rfl, by decide +kernel, by decide +kernel, by decide +kernel, by decide +kernel⟩

end Bridge

end AlarmBridge
