import AlarmBridge.Proofs.Arguments
import AlarmBridge.Proofs.Handles
import AlarmBridge.Proofs.Mirror
import AlarmBridge.Proofs.RoundTrip
import Mathlib.Data.List.Infix

/-! What a camera is read from, as the arguments of a process and as one line.  The line has the
header and the address between double quotes and leaves double quotes in them as they are, so it
comes apart into the arguments exactly if the serial and the token have none.  Two cameras have the
same line exactly if they are read from the same, or if what stands after the token in one line is
part of the other token. -/

set_option autoImplicit false

namespace AlarmBridge

def QuoteFree (s : String) : Prop := '"' ∉ s.toList

instance (s : String) : Decidable (QuoteFree s) := inferInstanceAs (Decidable ('"' ∉ s.toList))

theorem quoteFree_append {s t : String} : QuoteFree (s ++ t) ↔ QuoteFree s ∧ QuoteFree t := by
  simp only [QuoteFree, String.toList_append, List.mem_append, not_or]

namespace StreamInput

theorem describe_eq (i : StreamInput) : i.describe =
    "-re -headers \"Authorization: Bearer " ++ i.token ++ "\" -i \"" ++ i.url ++ "\"" := rfl

theorem toList_describe (i : StreamInput) : i.describe.toList =
    "-re".toList ++ ' ' :: ("-headers".toList ++ ' ' :: ('"' ::
      (("Authorization: Bearer " ++ i.token).toList ++ ['"']) ++ ' ' :: ("-i".toList ++ ' ' ::
        ('"' :: (i.url.toList ++ ['"']))))) := by
  have hstart : "-re -headers \"Authorization: Bearer ".toList =
      "-re".toList ++
        ' ' :: ("-headers".toList ++ ' ' :: '"' :: "Authorization: Bearer ".toList) := by
    decide
  have hmiddle : "\" -i \"".toList = '"' :: ' ' :: ("-i".toList ++ [' ', '"']) := by decide
  have hend : "\"".toList = ['"'] := by decide
  simp only [describe_eq, String.toList_append, hstart, hmiddle, hend, List.append_assoc,
    List.cons_append, List.nil_append]

theorem lineText_describe {i : StreamInput} (htoken : QuoteFree i.token) (hurl : QuoteFree i.url) :
    Arguments.LineText (i.args.map String.toList) i.describe.toList := by
  have hheader : QuoteFree ("Authorization: Bearer " ++ i.token) :=
    quoteFree_append.mpr ⟨by decide, htoken⟩
  have hargs : i.args.map String.toList = ["-re".toList, "-headers".toList,
      ("Authorization: Bearer " ++ i.token).toList, "-i".toList, i.url.toList] := rfl
  rw [hargs, toList_describe]
  exact .cons (.plain (by decide)) (.cons (.plain (by decide)) (.cons (.grouped hheader)
    (.cons (.plain (by decide)) (.last (.grouped hurl)))))

theorem ofLine?_describe_iff {i : StreamInput} :
    Arguments.ofLine? i.describe = some i.args ↔ QuoteFree i.token ∧ QuoteFree i.url := by
  constructor
  · intro h
    obtain ⟨as, hsplit, hargs⟩ := Option.map_eq_some_iff.mp h
    have hfree : ∀ a ∈ i.args, QuoteFree a := by
      intro a ha
      rw [← hargs] at ha
      obtain ⟨s, hs, rfl⟩ := List.mem_map.mp ha
      rw [QuoteFree, String.toList_ofList]
      exact Arguments.not_quote_mem_of_split? hsplit s hs
    have hheader : QuoteFree ("Authorization: Bearer " ++ i.token) :=
      hfree _ (by simp [args, toString])
    exact ⟨(quoteFree_append.mp hheader).2, hfree i.url (by simp [args])⟩
  · rintro ⟨htoken, hurl⟩
    rw [Arguments.ofLine?, (lineText_describe htoken hurl).split?_eq, Option.map_some, List.map_map]
    simp [Function.comp_def]

end StreamInput

/-- Nothing but the whole of a text stands both at its beginning and at its end. -/
def Unbordered {α : Type} (j : List α) : Prop := ∀ d, d <+: j → d <:+ j → d = [] ∨ d = j

namespace Unbordered

variable {α : Type} {j : List α}

/-- Where an unbordered text stands at the start and again further on, the two do not overlap. -/
theorem append_eq_append (hj : Unbordered j) {a b b' : List α} (h : a ++ (j ++ b') = j ++ b) :
    (a = [] ∧ b' = b) ∨ ∃ x, a = j ++ x ∧ b = x ++ (j ++ b') := by
  rcases List.append_eq_append_iff.mp h with ⟨d, hja, hjb⟩ | ⟨x, ha, hb⟩
  · -- What the two have in common is the end of the one and the beginning of the other.
    have hsuffix : d <:+ j := ⟨a, hja.symm⟩
    have hprefix : d <+: j :=
      List.prefix_of_prefix_length_le ⟨b, hjb.symm⟩ (List.prefix_append j b') hsuffix.length_le
    rcases hj d hprefix hsuffix with rfl | rfl
    · exact .inr ⟨[], by rw [hja, List.append_nil, List.append_nil], hjb.symm⟩
    · exact .inl ⟨List.self_eq_append_left.mp hja, List.append_cancel_left hjb⟩
  · exact .inr ⟨x, ha, hb⟩

/-- The texts before and after an unbordered one can be told from the whole, unless it stands in one
of them as well. -/
theorem append_eq_append_iff (hj : Unbordered j) {a b a' b' : List α} :
    a ++ (j ++ b) = a' ++ (j ++ b') ↔ (a = a' ∧ b = b') ∨
      (∃ x, a = a' ++ (j ++ x) ∧ b' = x ++ (j ++ b)) ∨
        ∃ x, a' = a ++ (j ++ x) ∧ b = x ++ (j ++ b') := by
  constructor
  · intro h
    rcases List.append_eq_append_iff.mp h with ⟨c, rfl, hc⟩ | ⟨c, rfl, hc⟩
    · rcases hj.append_eq_append hc.symm with ⟨rfl, rfl⟩ | ⟨x, rfl, rfl⟩
      · exact .inl ⟨(List.append_nil a).symm, rfl⟩
      · exact .inr (.inr ⟨x, rfl, rfl⟩)
    · rcases hj.append_eq_append hc.symm with ⟨rfl, rfl⟩ | ⟨x, rfl, rfl⟩
      · exact .inl ⟨List.append_nil a', rfl⟩
      · exact .inr (.inl ⟨x, rfl, rfl⟩)
  · rintro (⟨rfl, rfl⟩ | ⟨x, rfl, rfl⟩ | ⟨x, rfl, rfl⟩)
    · rfl
    · simp only [List.append_assoc]
    · simp only [List.append_assoc]

end Unbordered

namespace CameraRecord

def input (r : CameraRecord) (token : String) : StreamInput := ⟨r.url, token⟩

/-- What stands between the token and the serial in the line of a camera. -/
def joint : String := "\" -i \"https://media.simplisafe.com/v1/"

/-- The token of one camera is that of another followed by a joint and a text, and the serial of the
other is this text followed by a joint and the serial of the one. -/
def RunsOn (r : CameraRecord) (token : String) (r' : CameraRecord) (token' : String) : Prop :=
  ∃ x, token = token' ++ (joint ++ x) ∧ r'.serial = x ++ (joint ++ r.serial)

theorem unbordered_joint : Unbordered joint.toList := by
  have hinits : ∀ d ∈ joint.toList.inits, d <:+ joint.toList → d = [] ∨ d = joint.toList := by
    decide +kernel
  exact fun d hprefix => hinits d ((List.mem_inits d _).mpr hprefix)

theorem url_eq (r : CameraRecord) :
    r.url = "https://media.simplisafe.com/v1/" ++
      (r.serial ++ "/flv?x=1280&audioEncoding=AAC") := by
  rw [url, Bridge.videoUrl_defaultWidth, String.append_assoc]

theorem quoteFree_url (r : CameraRecord) : QuoteFree r.url ↔ QuoteFree r.serial := by
  have hstart : QuoteFree "https://media.simplisafe.com/v1/" := by decide
  have hend : QuoteFree "/flv?x=1280&audioEncoding=AAC" := by decide
  simp only [url_eq, quoteFree_append, hstart, hend, true_and, and_true]

theorem describe_input (r : CameraRecord) (token : String) : (r.input token).describe =
    "-re -headers \"Authorization: Bearer " ++ ((token ++ (joint ++ r.serial)) ++
      "/flv?x=1280&audioEncoding=AAC\"") := by
  have hjoint : joint = "\" -i \"" ++ "https://media.simplisafe.com/v1/" := by decide
  have hend :
      "/flv?x=1280&audioEncoding=AAC\"" = "/flv?x=1280&audioEncoding=AAC" ++ "\"" := by decide
  rw [StreamInput.describe_eq, input, url_eq, hjoint, hend]
  simp only [String.append_assoc]

variable {r r' : CameraRecord} {token token' : String}

theorem url_inj : r.url = r'.url ↔ r.serial = r'.serial := by
  rw [url_eq, url_eq, ← String.toList_inj]
  simp only [String.toList_append, List.append_cancel_left_eq, List.append_cancel_right_eq,
    String.toList_inj]

theorem input_inj : r.input token = r'.input token' ↔ token = token' ∧ r.serial = r'.serial := by
  rw [input, input, StreamInput.mk.injEq, url_inj, and_comm]

theorem runsOn_iff : r.RunsOn token r' token' ↔
    ∃ x, token.toList = token'.toList ++ (joint.toList ++ x) ∧
      r'.serial.toList = x ++ (joint.toList ++ r.serial.toList) := by
  constructor
  · rintro ⟨x, htoken, hserial⟩
    refine ⟨x.toList, ?_, ?_⟩
    · simp only [htoken, String.toList_append]
    · simp only [hserial, String.toList_append]
  · rintro ⟨x, htoken, hserial⟩
    refine ⟨String.ofList x, String.toList_inj.mp ?_, String.toList_inj.mp ?_⟩
    · simpa only [String.toList_append, String.toList_ofList] using htoken
    · simpa only [String.toList_append, String.toList_ofList] using hserial

/-- Two cameras have the same line exactly if they are read from the same or one's token runs on
into the other's serial. -/
theorem describe_input_eq_iff : (r.input token).describe = (r'.input token').describe ↔
    r.input token = r'.input token' ∨ r.RunsOn token r' token' ∨ r'.RunsOn token' r token := by
  rw [describe_input, describe_input, runsOn_iff, runsOn_iff, input_inj, ← String.toList_inj,
    ← String.toList_inj, ← String.toList_inj, ← unbordered_joint.append_eq_append_iff]
  simp only [String.toList_append, List.append_cancel_left_eq, List.append_cancel_right_eq]

end CameraRecord

namespace Bridge

/-- A camera has its record at every moment, and is read from what this record gives. -/
theorem exists_streamInput_run {entryId : String} {first : Snapshot} {clearDelay : Nat}
    {g : Grabber} {steps : List Step} {e : Entity}
    (he : e ∈ ((setup (.ofSnapshot entryId first) clearDelay g).run steps).entities)
    (hcamera : e.isCamera = true) :
    let b := (setup (.ofSnapshot entryId first) clearDelay g).run steps
    ∃ r, b.session.camera? e.info.systemId e.info.deviceSerial = some r ∧
      b.streamInput e = r.input b.session.token := by
  intro b
  obtain ⟨i, he⟩ := List.mem_iff_getElem?.mp he
  obtain ⟨image, hrole⟩ : ∃ image, e.role = .camera image := by
    unfold Entity.isCamera at hcamera
    split at hcamera
    · next image hrole => exact ⟨image, hrole⟩
    · cases hcamera
  have hkind : e.isMomentary = false := by simp [Entity.isMomentary, hrole]
  obtain ⟨value, hvalue⟩ := reading?_run (Session.keyed_ofSnapshot entryId first) he hkind
  rw [Entity.reading?, hrole] at hvalue
  obtain ⟨r, hr, -⟩ := Option.map_eq_some_iff.mp hvalue
  obtain ⟨latest, hlatest, -⟩ := Session.camera?_foldl_after hr steps
  have hsession : b.session = steps.foldl Session.after (.ofSnapshot entryId first) :=
    session_run _ steps
  rw [← hsession] at hlatest
  refine ⟨latest, hlatest, ?_⟩
  rw [streamInput, Session.streamInput, hlatest]
  rfl

/-- Of every record of a camera and every token: the line comes apart into the arguments of the
process exactly if neither the serial nor the token has a double quote.  Of every two records with
their tokens: the lines are the same exactly if the addresses and the tokens are, or if the token of
one runs on into the serial of the other.  And after every run, what a camera is read from is given
by the record that the session has of it and by its token. -/
theorem line_gives_arguments_iff_quoteFree :
    (∀ (r : CameraRecord) (token : String),
      Arguments.ofLine? (r.input token).describe = some (r.input token).args ↔
        QuoteFree r.serial ∧ QuoteFree token) ∧
    (∀ (r r' : CameraRecord) (token token' : String),
      (r.input token).describe = (r'.input token').describe ↔
        r.input token = r'.input token' ∨ r.RunsOn token r' token' ∨ r'.RunsOn token' r token) ∧
    ∀ (entryId : String) (first : Snapshot) (clearDelay : Nat) (g : Grabber) (steps : List Step),
      let b := (setup (.ofSnapshot entryId first) clearDelay g).run steps
      ∀ e ∈ b.entities, e.isCamera = true → ∃ r,
        b.session.camera? e.info.systemId e.info.deviceSerial = some r ∧
          b.streamInput e = r.input b.session.token := by
  refine ⟨fun r token => ?_, fun r r' token token' => CameraRecord.describe_input_eq_iff, ?_⟩
  · rw [StreamInput.ofLine?_describe_iff, and_comm]
    exact and_congr_left' r.quoteFree_url
  · intro entryId first clearDelay g steps b e he hcamera
    exact exists_streamInput_run he hcamera

/-- A camera whose record and token have been replaced has a line that comes apart. -/
theorem line_gives_arguments_iff_quoteFree_renamed :
    let b := (setup (.ofSnapshot "test" shyCamera) 30000 ⟨[], [], []⟩).run [.apply renamedCamera]
    ∃ e ∈ b.entities, e.isCamera = true ∧ (b.streamInput e).token = "later" ∧
      Arguments.ofLine? (b.streamInput e).describe = some (b.streamInput e).args := by
  intro b
  obtain ⟨e, hent⟩ : ∃ e, b.entities[1]? = some e := ⟨_, rfl⟩
  have hparts : b.entities[1]?.any (fun e => e.isCamera &&
      b.session.camera? e.info.systemId e.info.deviceSerial =
        some ⟨"c1", "Porch", .doorbell, "offline", true, true, true, true⟩) = true := by
    decide +kernel
  have htoken : b.session.token = "later" := by decide +kernel
  obtain ⟨hcamera, hrecord⟩ : e.isCamera = true ∧ _ := by simpa [hent] using hparts
  have he : e ∈ b.entities := List.mem_of_getElem? hent
  obtain ⟨hsplit, -, hread⟩ := line_gives_arguments_iff_quoteFree
  obtain ⟨r, hr, hinput⟩ :=
    hread "test" shyCamera 30000 ⟨[], [], []⟩ [.apply renamedCamera] e he hcamera
  obtain rfl := Option.some.inj (hrecord.symm.trans hr)
  have hinput : b.streamInput e = CameraRecord.input _ b.session.token := hinput
  refine ⟨e, he, hcamera, htoken, ?_⟩
  rw [hinput, htoken]
  exact (hsplit _ _).mpr ⟨by decide, by decide⟩

/-- A dump of two cameras, the serial of the second with double quotes. -/
def quotingDump (token : String) : Snapshot :=
  let camera (serial : String) : CameraRecord :=
    ⟨serial, "Hall", .camera, "online", true, true, true, true⟩
  ⟨token, [⟨1, 3, .off, [], [camera "c1", camera "d\" -i \"https://media.simplisafe.com/v1/c1"]⟩]⟩

/-- With double quotes in the token, the line of the first camera comes apart into seven arguments
and not the five of the process, and it is the line that the second camera had with another
token. -/
theorem quotes_tear_lines :
    let token := "t\" -i \"https://media.simplisafe.com/v1/d"
    let before := setup (.ofSnapshot "test" (quotingDump "t")) 30000 ⟨[], [], []⟩
    let after := before.run [.apply (quotingDump token)]
    (∀ dump ∈ [quotingDump "t", quotingDump token],
      Snapshot.ofText? dump.toJson.render = .ok dump) ∧
    ∃ e e', after.entities[2]? = some e ∧ before.entities[3]? = some e' ∧
      e.isCamera = true ∧ e'.isCamera = true ∧
      Arguments.ofLine? (after.streamInput e).describe = some ["-re", "-headers",
        "Authorization: Bearer t", "-i", "https://media.simplisafe.com/v1/d", "-i",
        "https://media.simplisafe.com/v1/c1/flv?x=1280&audioEncoding=AAC"] ∧
      Arguments.ofLine? (after.streamInput e).describe ≠ some (after.streamInput e).args ∧
      before.streamInput e' ≠ after.streamInput e ∧
      (before.streamInput e').describe = (after.streamInput e).describe := by
  intro token before after
  let input : StreamInput :=
    ⟨"https://media.simplisafe.com/v1/c1/flv?x=1280&audioEncoding=AAC", token⟩
  let input' : StreamInput := ⟨"https://media.simplisafe.com/v1/d\" -i \"" ++ input.url, "t"⟩
  obtain ⟨e, hent⟩ : ∃ e, after.entities[2]? = some e := ⟨_, rfl⟩
  obtain ⟨e', hent'⟩ : ∃ e', before.entities[3]? = some e' := ⟨_, rfl⟩
  have hfirst :
      after.entities[2]?.any (fun e => e.isCamera && after.streamInput e = input) = true := by
    decide +kernel
  have hsecond :
      before.entities[3]?.any (fun e => e.isCamera && before.streamInput e = input') = true := by
    decide +kernel
  obtain ⟨hcamera, hinput⟩ : e.isCamera = true ∧ after.streamInput e = input := by
    simpa only [hent, Option.any_some, Bool.and_eq_true, decide_eq_true_eq] using hfirst
  obtain ⟨hcamera', hinput'⟩ : e'.isCamera = true ∧ before.streamInput e' = input' := by
    simpa only [hent', Option.any_some, Bool.and_eq_true, decide_eq_true_eq] using hsecond
  refine ⟨fun dump _ => dump.decodes.decode_eq (Json.textOf_render _), e, e', hent, hent', hcamera,
    hcamera', ?_⟩
  rw [hinput, hinput']
  decide +kernel

end Bridge

end AlarmBridge
