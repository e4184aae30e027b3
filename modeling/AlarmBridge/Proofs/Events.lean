import AlarmBridge.Proofs.Json.Decoding
import AlarmBridge.Proofs.Json.Keeping
import AlarmBridge.Proofs.Time.Rfc3339
import AlarmBridge.PushEvent

/-! Push events written and read again.  The event that any text decodes to is `Proper`: its kind is
the one that its name stands for, and its time is valid.  Such an event is decoded from every text
of the JSON that it is written as. -/

set_option autoImplicit false

namespace AlarmBridge

open Json (Decodes Reader TextOf)

theorem EventType.name_ofName (s : String) : (ofName s).name = s := by
  unfold ofName
  split_ifs with hmotion hdoorbell
  · exact hmotion.symm
  · exact hdoorbell.symm
  · rfl

namespace Json

theorem Reader.yields_timestamp : Yields Reader.timestamp Time.Timestamp.Valid := by
  refine .after fun s => ?_
  cases hread : Time.Timestamp.ofText? s with
  | error fault => exact .throw _
  | ok t => exact .pure (Time.Timestamp.valid_of_ofText? hread)

namespace Decodes

theorem nullable_text (s : Option String) :
    Decodes (Reader.nullable Reader.text) (Value.ofText? s) s := by
  intro t u v ht hu
  unfold Reader.nullable
  cases s with
  | none =>
    cases hu with
    | null =>
      rw [Reader.run_bind (Reader.run_peekPastSpaces ht rfl)]
      rfl
  | some s =>
    have htext := (Decodes.text s).map some u u v (.none u) hu
    cases hu with
    | text =>
      rw [Reader.run_bind (Reader.run_peekPastSpaces ht rfl)]
      exact htext

theorem instant {t : Time.Timestamp} (h : t.Valid) :
    Decodes Reader.timestamp (.text (String.ofList (t.text ['Z']))) t := by
  intro s u v hs hu
  unfold Reader.timestamp
  rw [Reader.run_bind (textFor .timestamp _ s u v hs hu), String.toList_ofList,
    Time.Timestamp.ofText?_text h]
  rfl

end Decodes

end Json

namespace PushEvent

/-- The kind of the event is the one of its name, and its time is valid. -/
structure Proper (e : PushEvent) : Prop where
  eventType : EventType.ofName e.eventType.name = e.eventType
  timestamp : ∀ t ∈ e.timestamp, t.Valid

open Json.Reader in
/-- What any text decodes to is a proper event. -/
theorem yields_read : Yields shape.read Proper := by
  refine Json.Shape.yields_read ⟨by decide, by rintro t ⟨⟩⟩ ?_
  simp only [shape, List.mem_cons, List.not_mem_nil, or_false, forall_eq_or_imp, forall_eq]
  refine ⟨?_, ?_, ?_, ?_, ?_⟩
  · refine Json.Field.yields_of (.any text) fun s _ e he => ⟨?_, he.timestamp⟩
    simp only [EventType.name_ofName]
  · exact Json.Field.yields_of (.any uint64) fun _ _ e he => ⟨he.eventType, he.timestamp⟩
  · exact Json.Field.yields_of (.any (nullable text)) fun _ _ e he => ⟨he.eventType, he.timestamp⟩
  · refine Json.Field.yields_of yields_timestamp fun t ht e he => ⟨he.eventType, ?_⟩
    rintro _ ⟨⟩
    exact ht
  · exact Json.Field.yields_of (.any text) fun _ _ e he => ⟨he.eventType, he.timestamp⟩

theorem proper_of_ofText? {text : List Char} {e : PushEvent} (h : ofText? text = .ok e) :
    e.Proper := by
  obtain ⟨rest, hrun⟩ := Json.exists_run_of_decode h
  exact yields_read text e rest hrun

open Json.Decodes Json.Shape in
theorem decodes {e : PushEvent} (h : e.Proper) (hgiven : e.timestamp.isSome = true) :
    Decodes shape.read e.toJson e := by
  obtain ⟨eventType, systemId, sensorSerial, time, info⟩ := e
  obtain ⟨t, rfl⟩ := Option.isSome_iff_exists.mp hgiven
  have hdecodes := decodes_membersOf shape (by decide) <|
    .cons (text eventType.name) <| .cons (uint64 systemId) <| .cons (nullable_text sensorSerial) <|
    .cons (instant (h.timestamp t rfl)) <| .cons (text info) .nil
  simp only [List.foldl_cons, List.foldl_nil] at hdecodes
  rwa [h.eventType] at hdecodes

theorem Proper.other_ne {e : PushEvent} (h : e.Proper) {name : String}
    (hother : e.eventType = .other name) :
    name ≠ EventType.motionDetected.name ∧ name ≠ EventType.doorbellDetected.name := by
  have hname := h.eventType
  rw [hother] at hname
  constructor
  · rintro rfl
    exact absurd hname (by decide)
  · rintro rfl
    exact absurd hname (by decide)

/-- An event that a text with a time decodes to, however the text spells it, is written as JSON that
decodes to the same event: as it is written, and in every other spelling.  Only a kind that is not
known is carried under its name.  The event is proper, and every proper event with a time is decoded
from its JSON. -/
theorem decoding_is_stable :
    (∀ (text : List Char) (e : PushEvent), ofText? text = .ok e → e.timestamp.isSome = true →
      ofText? e.toJson.render = .ok e ∧
        (∀ text', TextOf text' e.toJson → ofText? text' = .ok e) ∧
        (∀ name, e.eventType = .other name →
          name ≠ EventType.motionDetected.name ∧ name ≠ EventType.doorbellDetected.name) ∧
        e.Proper) ∧
    ∀ e : PushEvent, e.Proper → e.timestamp.isSome = true →
      ∀ text, TextOf text e.toJson → ofText? text = .ok e := by
  have hdecodes : ∀ e : PushEvent, e.Proper → e.timestamp.isSome = true →
      ∀ text, TextOf text e.toJson → ofText? text = .ok e :=
    fun e hproper hgiven text htext => (decodes hproper hgiven).decode_eq htext
  refine ⟨fun text e h hgiven => ?_, hdecodes⟩
  have hproper := proper_of_ofText? h
  have hread := hdecodes e hproper hgiven
  exact ⟨hread _ (Json.textOf_render e.toJson), hread, fun _ => hproper.other_ne, hproper⟩

/-- An event of a leap second in the year 12016, an hour and a half east of universal time. -/
def leapSecondText : List Char :=
  ("\x7b\"system_id\": 7, \"event_type\": \"armed_home\", \"info\": \"\\u00e9\", " ++
    "\"timestamp\": \"+012017-1 -1t1: 29:60.1234567891 +01 30\"\x7d").toList

theorem decoding_is_stable_leapSecond :
    ∃ e, ofText? leapSecondText = .ok e ∧ e.timestamp = some ⟨317052748799, 1123456789⟩ ∧
      ofText? e.toJson.render = .ok e := by
  have hread : (ofText? leapSecondText).toOption =
      some ⟨.other "armed_home", 7, none, some ⟨317052748799, 1123456789⟩, "é"⟩ := by decide +kernel
  cases htext : ofText? leapSecondText with
  | error fault =>
    rw [htext] at hread
    cases hread
  | ok e =>
    rw [htext] at hread
    obtain rfl := Option.some.inj hread
    exact ⟨_, rfl, rfl, (decoding_is_stable.1 leapSecondText _ htext rfl).1⟩

end PushEvent

end AlarmBridge
