import AlarmBridge.Proofs.Json.Evolving
import AlarmBridge.Snapshot

/-! Dumps of a newer service.  A text that decodes still does when the members of its objects are
put in another order, members with new names are added to them, blanks are put between tokens, and
states and camera families are any texts: those that are not known become `unknown`, and nothing
else changes. -/

set_option autoImplicit false

namespace AlarmBridge

open Json
open Json.Reader (run_bind run_skip run_peekPastSpaces run_stringBody run_colon exists_of_run_bind
  settles_text settles_boolean settles_uint8 settles_uint16 settles_uint64)

namespace CameraType

variable {s t u : List Char}

/-- The part of `read` from the name in an object on. -/
def readTagged : Reader CameraType := do
  let name ← Reader.stringBody
  Reader.colon
  Reader.unit
  match ← Reader.peekPastSpaces with
  | none => throw .endInObject
  | some d => if d = '\x7d' then Reader.skip else throw .expectedValue
  return ofText (String.ofList name)

theorem run_read_text (hs : Blanks s ('"' :: t)) :
    read.run s = ((fun name => ofText (String.ofList name)) <$> Reader.stringBody).run t := by
  unfold read
  rw [run_bind (run_peekPastSpaces hs rfl)]
  show (Reader.skip >>= _).run _ = _
  rw [run_bind (run_skip _ _), map_eq_pure_bind]

theorem run_read_tagged (hs : Blanks s ('\x7b' :: t)) (ht : Blanks t ('"' :: u)) :
    read.run s = readTagged.run u := by
  unfold read
  rw [run_bind (run_peekPastSpaces hs rfl)]
  show (Reader.skip >>= _).run _ = _
  rw [run_bind (run_skip _ _), run_bind (run_peekPastSpaces ht rfl)]
  rfl

theorem takes_text {d cs : List Char} (h : Spells d cs) :
    Takes read (.text d) (ofText (String.ofList cs)) := by
  intro s t u hs hv
  cases hv with
  | text =>
    rw [run_read_text hs]
    exact Reader.run_map (run_stringBody (h u)) _

theorem takes_tagged {k name : List Char} (hk : Spells k name) :
    Takes read (.object [(k, .null)]) (ofText (String.ofList name)) := by
  intro s t u hs hv
  cases hv with
  | object _ h =>
    cases h with
    | member hbefore hname hcolon hspace hnull hrest =>
      cases hbefore with
      | first hbefore =>
        cases hrest with
        | close hend =>
          obtain rfl : _ = _ ++ '"' :: _ := hname
          rw [run_read_tagged hs hbefore]
          unfold readTagged
          rw [run_bind (run_stringBody (hk _)), run_bind (run_colon hcolon),
            run_bind (Reader.takes_unit _ _ _ hspace hnull), run_bind (run_peekPastSpaces hend rfl)]
          rfl

theorem exists_tagged_of_run {ms : List (List Char × Tree)} (hs : Blanks s t)
    (hv : TreeText t (.object ms) u) {p : CameraType × List Char} (hrun : read.run s = .ok p) :
    ∃ k name, ms = [(k, .null)] ∧ Spells k name := by
  cases hv with
  | object hspelled h =>
    cases h with
    | close hend =>
      unfold read at hrun
      rw [run_bind (run_peekPastSpaces hs rfl)] at hrun
      change (Reader.skip >>= _).run _ = _ at hrun
      rw [run_bind (run_skip _ _), run_bind (run_peekPastSpaces hend rfl)] at hrun
      cases hrun
    | member hbefore hname hcolon hspace hvalue hrest =>
      cases hbefore with
      | first hbefore =>
        obtain rfl : _ = _ ++ '"' :: _ := hname
        rw [run_read_tagged hs hbefore] at hrun
        obtain ⟨cs, hcs⟩ : ∃ cs, Spells _ cs := by
          obtain ⟨_, _, hread, -⟩ := exists_of_run_bind hrun
          exact Reader.exists_spells_of_run_stringBody (hspelled _ List.mem_cons_self) hread
        unfold readTagged at hrun
        rw [run_bind (run_stringBody (hcs _)), run_bind (run_colon hcolon)] at hrun
        obtain ⟨_, w, hunit, hrun⟩ := exists_of_run_bind hrun
        obtain rfl := Reader.eq_null_of_run_unit hspace hvalue hunit
        rw [Reader.takes_unit _ _ _ hspace hvalue] at hunit
        cases hunit
        -- after the one name with its null the object must end
        cases hrest with
        | close => exact ⟨_, cs, rfl, hcs⟩
        | member hbefore =>
          cases hbefore with
          | comma hcomma =>
            rw [run_bind (run_peekPastSpaces hcomma rfl)] at hrun
            cases hrun

/-- A family is settled by a string, and by an object with one name and null. -/
theorem settles_read : Settles read := by
  have hother : ∀ v : Tree, ¬v.Starts '"' → ¬v.Starts '\x7b' → Refuses read v := by
    intro v htext hobject s t u p hs hv hrun
    obtain ⟨c, w, rfl, hc⟩ := hv.starts
    unfold read at hrun
    rw [run_bind (run_peekPastSpaces hs (Tree.Starts.head hc).1)] at hrun
    simp only [Tree.Starts.ne hc htext, Tree.Starts.ne hc hobject, if_false] at hrun
    cases hrun
  intro v
  cases v with
  | text d =>
    by_cases hspells : ∃ cs, Spells d cs
    · obtain ⟨cs, hcs⟩ := hspells
      exact .inl ⟨_, takes_text hcs⟩
    · refine .inr fun s t u p hs hv hrun => hspells ?_
      cases hv with
      | text _ hd =>
        rw [run_read_text hs] at hrun
        obtain ⟨_, hread, -⟩ := Reader.exists_of_run_map hrun
        exact Reader.exists_spells_of_run_stringBody hd hread
  | object ms =>
    by_cases htagged : ∃ k name, ms = [(k, .null)] ∧ Spells k name
    · obtain ⟨k, name, rfl, hk⟩ := htagged
      exact .inl ⟨_, takes_tagged hk⟩
    · exact .inr fun s t u p hs hv hrun => htagged (exists_tagged_of_run hs hv hrun)
  | _ => exact .inr (hother _ (by simp [Tree.Starts]) (by simp [Tree.Starts]))

end CameraType

theorem SensorRecord.lawful : SensorRecord.shape.Lawful where
  named := by decide
  apart := by
    simp only [shape, List.pairwise_cons, List.forall_mem_cons, List.not_mem_nil, false_implies,
      implies_true, and_true, List.Pairwise.nil]
    and_intros <;> exact Field.apart_of fun _ _ _ => rfl
  settled := by
    simp only [shape, List.forall_mem_cons, List.not_mem_nil, false_implies, implies_true, and_true]
    exact ⟨settles_text.map _, settles_text.map _, settles_uint16.map _, settles_boolean.map _,
      settles_boolean.map _⟩

theorem CameraRecord.lawful : CameraRecord.shape.Lawful where
  named := by decide
  apart := by
    simp only [shape, List.pairwise_cons, List.forall_mem_cons, List.not_mem_nil, false_implies,
      implies_true, and_true, List.Pairwise.nil]
    and_intros <;> exact Field.apart_of fun _ _ _ => rfl
  settled := by
    simp only [shape, List.forall_mem_cons, List.not_mem_nil, false_implies, implies_true, and_true]
    exact ⟨settles_text.map _, settles_text.map _, CameraType.settles_read.map _,
      settles_text.map _, settles_boolean.map _, settles_boolean.map _, settles_boolean.map _,
      settles_boolean.map _⟩

theorem SystemSnapshot.lawful : SystemSnapshot.shape.Lawful where
  named := by decide
  apart := by
    simp only [shape, List.pairwise_cons, List.forall_mem_cons, List.not_mem_nil, false_implies,
      implies_true, and_true, List.Pairwise.nil]
    and_intros <;> exact Field.apart_of fun _ _ _ => rfl
  settled := by
    simp only [shape, List.forall_mem_cons, List.not_mem_nil, false_implies, implies_true, and_true]
    exact ⟨settles_uint64.map _, settles_uint8.map _, settles_text.map _,
      SensorRecord.lawful.settles_read.list.map _, CameraRecord.lawful.settles_read.list.map _⟩

theorem Snapshot.lawful : Snapshot.shape.Lawful where
  named := by decide
  apart := by
    simp only [shape, List.pairwise_cons, List.forall_mem_cons, List.not_mem_nil, false_implies,
      implies_true, and_true, List.Pairwise.nil]
    exact Field.apart_of fun _ _ _ => rfl
  settled := by
    simp only [shape, List.forall_mem_cons, List.not_mem_nil, false_implies, implies_true, and_true]
    exact ⟨settles_text.map _, SystemSnapshot.lawful.settles_read.list.map _⟩

/-- Nothing of a sensor is edited. -/
inductive SensorRecord.Edit : Shape.Edits SensorRecord

/-- The family of a camera may become any text. -/
inductive CameraRecord.Edit : Shape.Edits CameraRecord
  | cameraType (v : Tree) {d : List Char} {text : String} (h : Spells d text.toList) :
      Edit "camera_type" v (.text d) fun r => { r with cameraType := .ofText text }

/-- The state of a system may become any text, and its devices may evolve. -/
inductive SystemSnapshot.Edit : Shape.Edits SystemSnapshot
  | state (v : Tree) {d : List Char} {text : String} (h : Spells d text.toList) :
      Edit "state" v (.text d) fun r => { r with state := .ofText text }
  | sensors {vs vs' : List Tree} {gs : List (SensorRecord → SensorRecord)}
      (h : EachEvolves (SensorRecord.shape.Evolves SensorRecord.Edit) vs vs' gs) :
      Edit "sensors" (.list vs) (.list vs') fun r => { r with sensors := eachAfter gs r.sensors }
  | cameras {vs vs' : List Tree} {gs : List (CameraRecord → CameraRecord)}
      (h : EachEvolves (CameraRecord.shape.Evolves CameraRecord.Edit) vs vs' gs) :
      Edit "cameras" (.list vs) (.list vs') fun r => { r with cameras := eachAfter gs r.cameras }

/-- The systems of a dump may evolve. -/
inductive Snapshot.Edit : Shape.Edits Snapshot
  | systems {vs vs' : List Tree} {gs : List (SystemSnapshot → SystemSnapshot)}
      (h : EachEvolves (SystemSnapshot.shape.Evolves SystemSnapshot.Edit) vs vs' gs) :
      Edit "systems" (.list vs) (.list vs') fun r => { r with systems := eachAfter gs r.systems }

theorem SensorRecord.follows : SensorRecord.shape.Follows SensorRecord.Edit := nofun

theorem CameraRecord.follows : CameraRecord.shape.Follows CameraRecord.Edit := by
  rintro _ _ _ _ ⟨_, h⟩ htext -
  refine ⟨cameraTypeField, by simp [shape], rfl, fun change hchange => ?_⟩
  have htakes := CameraType.takes_text h
  rw [String.ofList_toList] at htakes
  exact Shape.takes_edited hchange CameraType.settles_read htext (fun _ _ => htakes) fun _ _ => rfl

theorem SystemSnapshot.follows : SystemSnapshot.shape.Follows SystemSnapshot.Edit := by
  intro name v v' g h htext htext'
  cases h with
  | state _ h =>
    refine ⟨stateField, by simp [shape], rfl, fun change hchange => ?_⟩
    exact Shape.takes_edited hchange settles_text htext (fun _ _ => Reader.takes_text h)
      fun _ _ => rfl
  | sensors h =>
    refine ⟨sensorsField, by simp [shape], rfl, fun change hchange => ?_⟩
    exact Shape.takes_edited_list SensorRecord.lawful SensorRecord.follows h htext htext' hchange
      fun _ _ => rfl
  | cameras h =>
    refine ⟨camerasField, by simp [shape], rfl, fun change hchange => ?_⟩
    exact Shape.takes_edited_list CameraRecord.lawful CameraRecord.follows h htext htext' hchange
      fun _ _ => rfl

theorem Snapshot.follows : Snapshot.shape.Follows Snapshot.Edit := by
  rintro _ _ _ _ ⟨h⟩ htext htext'
  refine ⟨systemsField, by simp [shape], rfl, fun change hchange => ?_⟩
  exact Shape.takes_edited_list SystemSnapshot.lawful SystemSnapshot.follows h htext htext' hchange
    fun _ _ => rfl

/-- A text stands for the state of its name, in letters of any case, and else for none that is
known. -/
theorem ArmState.ofText_spec (text : String) :
    (∀ t : ArmState, text.map Char.toLower = t.name → ofText text = t) ∧
      ((∀ t : ArmState, text.map Char.toLower ≠ t.name) → ofText text = .unknown) := by
  unfold ofText
  refine ⟨fun t ht => ?_, fun hnone => ?_⟩
  · have hname : ofName? t.name = some t := by cases t <;> decide
    rw [ht, hname]
    rfl
  · have hname : ofName? (text.map Char.toLower) = none :=
      List.find?_eq_none.mpr fun t _ ht => hnone t (of_decide_eq_true ht).symm
    rw [hname]
    rfl

theorem CameraType.ofText_spec (text : String) :
    (ofText text = .camera ↔ text = "camera") ∧ (ofText text = .doorbell ↔ text = "doorbell") := by
  by_cases hcamera : text = "camera"
  · subst hcamera
    decide
  · by_cases hdoorbell : text = "doorbell"
    · subst hdoorbell
      decide
    · have hother : ofText text = .unknown := by
        have hcamera' : ¬CameraType.camera.name = text := fun h => hcamera h.symm
        have hdoorbell' : ¬CameraType.doorbell.name = text := fun h => hdoorbell h.symm
        unfold ofText ofName?
        simp only [List.find?_cons, hcamera', hdoorbell', decide_false]
        cases decide (CameraType.unknown.name = text) <;> rfl
      simp [hother, hcamera, hdoorbell]

/-- Let a text of a tree decode, and let the tree evolve: in the objects of the dump, its systems,
sensors and cameras the members stand in another order, members are added whose names are those of
no field, with any values, and the states of some systems and the families of some cameras are any
texts.  Then each text of that tree, with any blanks between its tokens, decodes to what the first
text does, but for the edits: a state is the one with the name that the text is in letters of any
case, or else unknown, and a family is the one with exactly that name, or else unknown. -/
theorem Snapshot.decoding_forward_compatible {v v' : Tree} {revise : Snapshot → Snapshot}
    (h : Snapshot.shape.Evolves Snapshot.Edit v v' revise) {text text' : List Char}
    (htext : v.TextOf text) (htext' : v'.TextOf text') {s : Snapshot}
    (hs : Snapshot.ofText? text = .ok s) :
    Snapshot.ofText? text' = .ok (revise s) ∧
    (∀ name : String, (∀ t : ArmState, name.map Char.toLower = t.name → ArmState.ofText name = t) ∧
      ((∀ t : ArmState, name.map Char.toLower ≠ t.name) → ArmState.ofText name = .unknown)) ∧
    ∀ name : String, (CameraType.ofText name = .camera ↔ name = "camera") ∧
      (CameraType.ofText name = .doorbell ↔ name = "doorbell") :=
  have htracks := Snapshot.lawful.tracks Snapshot.follows
  ⟨htracks.decode_eq Snapshot.lawful.settles_read h htext htext' hs, ArmState.ofText_spec,
    CameraType.ofText_spec⟩

/-- A dump of a system with a doorbell. -/
def doorbellDump : Tree :=
  .object [("systems".toList, .list [.object [("system_id".toList, .number ['1']),
    ("version".toList, .number ['3']), ("state".toList, .text "off".toList),
    ("cameras".toList, .list [.object [("serial".toList, .text "c1".toList),
      ("name".toList, .text "Porch".toList), ("camera_type".toList, .text "doorbell".toList)]])]])]

/-- The same of a newer service, with a new member, a new family and all in another order. -/
def newerDump : Tree :=
  .object [("schema".toList, .list [.null, .object []]),
    ("systems".toList, .list [.object [
    ("cameras".toList, .list [.object [("camera_type".toList, .text "floodlight".toList),
      ("name".toList, .text "Porch".toList), ("serial".toList, .text "c1".toList)]]),
    ("state".toList, .text "HOME".toList), ("version".toList, .number ['3']),
    ("system_id".toList, .number ['1'])]])]

theorem spells_of_dumps : ∀ text ∈ ["systems", "system_id", "version", "state", "off", "cameras",
    "serial", "c1", "name", "Porch", "camera_type", "doorbell", "schema", "floodlight", "HOME"],
    Spelling text.toList ∧ Spells text.toList text.toList := by
  intro text htext
  refine spells_self ?_
  revert text
  decide

theorem dumps_wellSpelled : doorbellDump.WellSpelled ∧ newerDump.WellSpelled := by
  have hplain := fun text htext => (spells_of_dumps text htext).1
  have hdigit : ∀ c ∈ ['1', '3'], NumberText [c] := by
    intro c hc
    have hdigits : c ≠ '0' ∧ Digits [c] := by
      rcases List.mem_pair.mp hc with rfl | rfl <;>
        exact ⟨by decide, List.cons_ne_nil _ _, List.forall_mem_singleton.mpr rfl⟩
    exact @NumberText.parts [] [c] [] [] (by decide) (.digits hdigits.1 hdigits.2) .none .none
  simp only [doorbellDump, newerDump, Tree.wellSpelled_list, Tree.wellSpelled_object,
    List.forall_mem_cons, List.not_mem_nil, false_implies, implies_true, and_true]
  and_intros <;> first
    | exact hplain _ (by decide)
    | exact .text (hplain _ (by decide))
    | exact .number (hdigit _ (by decide))
    | exact .null

/-- A state becomes known by another case, and a new family is not known. -/
theorem Snapshot.decoding_forward_compatible_newerDump :
    Snapshot.ofText? doorbellDump.compact =
      .ok ⟨"", [⟨1, 3, .off, [], [⟨"c1", "Porch", .doorbell, "", false, false, false, false⟩]⟩]⟩ ∧
    Snapshot.ofText? (' ' :: newerDump.compact) =
      .ok ⟨"", [⟨1, 3, .home, [],
        [⟨"c1", "Porch", .unknown, "", false, false, false, false⟩]⟩]⟩ := by
  have hspells := fun text htext => (spells_of_dumps text htext).2
  have hcamera := @Shape.Evolves.object _ CameraRecord.shape CameraRecord.Edit _ _ [] _ _
    (.keep ("serial".toList, .text "c1".toList) (.keep ("name".toList, .text "Porch".toList)
      (.edit (hspells "camera_type" (by decide))
        (.cameraType (.text "doorbell".toList) (hspells "floodlight" (by decide))) .nil)))
    (by simp) (List.reverse_perm _)
  have hsystem := @Shape.Evolves.object _ SystemSnapshot.shape SystemSnapshot.Edit _ _ [] _ _
    (.keep ("system_id".toList, .number ['1']) (.keep ("version".toList, .number ['3'])
      (.edit (hspells "state" (by decide))
        (.state (.text "off".toList) (hspells "HOME" (by decide)))
        (.edit (hspells "cameras" (by decide)) (.cameras (.cons hcamera .nil)) .nil))))
    (by simp) (List.reverse_perm _)
  have hdump := @Shape.Evolves.object _ Snapshot.shape Snapshot.Edit _ _
    [("schema".toList, .list [.null, .object []])] _ _
    (.edit (hspells "systems" (by decide)) (.systems (.cons hsystem .nil)) .nil)
    (by simpa using ⟨"schema", hspells "schema" (by decide), by decide⟩) (.swap _ _ _)
  have hread : Snapshot.ofText? doorbellDump.compact =
      .ok ⟨"", [⟨1, 3, .off, [],
        [⟨"c1", "Porch", .doorbell, "", false, false, false, false⟩]⟩]⟩ := by
    decide +kernel
  have hblank : Blanks (' ' :: newerDump.compact) newerDump.compact := .blank (by decide) (.none _)
  obtain ⟨hnewer, -⟩ := Snapshot.decoding_forward_compatible hdump
    (dumps_wellSpelled.1.textOf_compact (.none _)) (dumps_wellSpelled.2.textOf_compact hblank) hread
  refine ⟨hread, hnewer.trans ?_⟩
  decide +kernel

end AlarmBridge
