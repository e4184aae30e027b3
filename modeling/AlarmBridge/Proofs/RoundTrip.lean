import AlarmBridge.Proofs.Json.Decoding
import AlarmBridge.Snapshot

/-! The JSON of a dump and back.  Every text of the JSON that a dump is written as, however it is
spaced and its strings are escaped, decodes to that dump. -/

set_option autoImplicit false

namespace AlarmBridge

open Json (Decodes Reader TextOf)

theorem ArmState.ofText_name (state : ArmState) : ArmState.ofText state.name = state := by
  cases state <;> decide +kernel

open Json.Decodes Json.Shape

theorem CameraType.decodes (t : CameraType) : Decodes CameraType.read (.text t.name) t := by
  intro s u v hs hu
  cases hu with
  | text h =>
    unfold CameraType.read
    rw [Reader.run_bind (Reader.run_peekPastSpaces hs rfl)]
    show (Reader.skip >>= _).run _ = _
    rw [Reader.run_bind (Reader.run_skip _ _), Reader.run_bind (Reader.run_stringBody h),
      String.ofList_toList, ofText_name]
    rfl

theorem SensorRecord.decodes (r : SensorRecord) : Decodes SensorRecord.shape.read r.toJson r := by
  have h := decodes_membersOf SensorRecord.shape (by decide) <|
    .cons (text r.serial) <| .cons (text r.name) <| .cons (uint16 r.deviceType.code) <|
    .cons (boolean r.triggered) <| .cons (boolean r.lowBattery) .nil
  simp only [List.foldl_cons, List.foldl_nil, DeviceType.ofCode_code] at h
  exact h

theorem CameraRecord.decodes (r : CameraRecord) : Decodes CameraRecord.shape.read r.toJson r :=
  decodes_membersOf CameraRecord.shape (by decide) <|
    .cons (text r.serial) <| .cons (text r.name) <| .cons r.cameraType.decodes <|
    .cons (text r.status) <| .cons (boolean r.subscriptionEnabled) <|
    .cons (boolean r.shutterOpenWhenOff) <| .cons (boolean r.shutterOpenWhenHome) <|
    .cons (boolean r.shutterOpenWhenAway) .nil

theorem SystemSnapshot.decodes (s : SystemSnapshot) :
    Decodes SystemSnapshot.shape.read s.toJson s := by
  have h := decodes_membersOf SystemSnapshot.shape (by decide) <|
    .cons (uint64 s.systemId) <| .cons (uint8 s.version) <| .cons (text s.state.name) <|
    .cons (list_map SensorRecord.decodes s.sensors) <|
    .cons (list_map CameraRecord.decodes s.cameras) .nil
  simp only [List.foldl_cons, List.foldl_nil, ArmState.ofText_name] at h
  exact h

theorem Snapshot.decodes (s : Snapshot) : Decodes Snapshot.shape.read s.toJson s :=
  decodes_membersOf Snapshot.shape (by decide) <|
    .cons (text s.accessToken) <| .cons (list_map SystemSnapshot.decodes s.systems) .nil

/-- Every text of the JSON of a dump decodes to the dump, and so does the one that is written.  So
decoding a text, writing what it decodes to and decoding that comes to the same as decoding it. -/
theorem Snapshot.decoding_undoes_encoding :
    (∀ (s : Snapshot) (text : List Char), TextOf text s.toJson → Snapshot.ofText? text = .ok s) ∧
    (∀ s : Snapshot, TextOf s.toJson.render s.toJson ∧ Snapshot.ofText? s.toJson.render = .ok s) ∧
    ∀ text : List Char,
      ((Snapshot.ofText? text).bind fun s => Snapshot.ofText? s.toJson.render) =
        Snapshot.ofText? text := by
  have hdecode : ∀ (s : Snapshot) (text : List Char), TextOf text s.toJson →
      Snapshot.ofText? text = .ok s := fun s _ htext => s.decodes.decode_eq htext
  have hwritten : ∀ s : Snapshot, Snapshot.ofText? s.toJson.render = .ok s :=
    fun s => hdecode s _ (Json.textOf_render s.toJson)
  refine ⟨hdecode, fun s => ⟨Json.textOf_render s.toJson, hwritten s⟩, fun text => ?_⟩
  cases Snapshot.ofText? text with
  | error fault => rfl
  | ok s =>
    -- without this step the reader would be run on the text itself
    simp only [Except.bind]
    exact hwritten s

/-- A token that is spelled with escapes. -/
def escapedToken : List Char :=
  "\x7b \"systems\": [], \"access_token\": \"\\u00E9\\ud83d\\uDE00\\\"\\/\" \x7d".toList

theorem Snapshot.decoding_undoes_encoding_escaped :
    ∃ s, Snapshot.ofText? escapedToken = .ok s ∧ s.accessToken = "é😀\"/" ∧
      Snapshot.ofText? s.toJson.render = .ok s := by
  have hread : (Snapshot.ofText? escapedToken).toOption = some ⟨"é😀\"/", []⟩ := by decide +kernel
  obtain ⟨-, hwritten, -⟩ := Snapshot.decoding_undoes_encoding
  cases htext : Snapshot.ofText? escapedToken with
  | error fault =>
    rw [htext] at hread
    cases hread
  | ok s =>
    rw [htext] at hread
    exact ⟨s, rfl, congrArg Snapshot.accessToken (Option.some.inj hread), (hwritten s).2⟩

end AlarmBridge
