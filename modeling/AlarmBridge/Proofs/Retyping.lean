import AlarmBridge.Proofs.Compatibility
import AlarmBridge.Proofs.Json.Replacing

/-! Dumps with sensors of new types.  The numbers that tell the types of sensors are replaced by any
whole numbers from zero up.  Numbers that no type has stand for `unknown` as long as they fit 16
bits; one that does not makes the dump unreadable as a whole. -/

set_option autoImplicit false

namespace AlarmBridge

open Json

namespace DeviceType

/-- The kind that a number of any size is to stand for. -/
def ofNumber (n : Nat) : DeviceType := (known.find? fun t => t.code.toNat = n).getD unknown

theorem ofNumber_spec (n : Nat) : (∀ t ∈ known, t.code.toNat = n → ofNumber n = t) ∧
    ((∀ t ∈ known, t.code.toNat ≠ n) → ofNumber n = unknown) := by
  unfold ofNumber
  refine ⟨?_, fun hnone => ?_⟩
  · rintro t ht rfl
    revert t
    decide
  · rw [List.find?_eq_none.mpr fun t ht hsame => hnone t ht (of_decide_eq_true hsame)]
    rfl

/-- Of numbers that fit 16 bits the kinds are those they are to stand for. -/
theorem ofCode_ofNat {n : Nat} (h : n < 65536) : ofCode (UInt16.ofNat n) = ofNumber n := by
  have hsame : ∀ t : DeviceType, t.code = UInt16.ofNat n ↔ t.code.toNat = n := by
    intro t
    rw [← UInt16.toNat_inj, UInt16.toNat_ofNat_of_lt' h]
  simp only [ofCode, ofNumber, hsame]

end DeviceType

/-- The number that is the type of a sensor may become any whole number from zero up. -/
inductive SensorRecord.Retyping : Shape.Edits SensorRecord
  | type (d : List Char) {d' : List Char} (h : WholePart d') :
      Retyping "type" (.number d) (.number d')
        fun r => { r with deviceType := .ofNumber (Nat.ofDigitChars 10 d' 0) }

/-- The type of a sensor is a whole number that does not fit 16 bits. -/
inductive SensorRecord.Wide : Shape.Marks
  | type {d : List Char} (h : WholePart d) (hwide : 65536 ≤ Nat.ofDigitChars 10 d 0) :
      Wide "type" (.number d)

/-- Any sensors of a system may become of other types. -/
inductive SystemSnapshot.Retyping : Shape.Edits SystemSnapshot
  | sensors {vs vs' : List Tree} {gs : List (SensorRecord → SensorRecord)}
      (h : EachEvolves (SensorRecord.shape.Replaced SensorRecord.Retyping) vs vs' gs) :
      Retyping "sensors" (.list vs) (.list vs')
        fun r => { r with sensors := eachAfter gs r.sensors }

inductive SystemSnapshot.Wide : Shape.Marks
  | sensors {vs : List Tree} {v : Tree} (hv : v ∈ vs)
      (h : SensorRecord.shape.GivesMarked SensorRecord.Wide v) : Wide "sensors" (.list vs)

/-- Any sensors of the systems of a dump may become of other types. -/
inductive Snapshot.Retyping : Shape.Edits Snapshot
  | systems {vs vs' : List Tree} {gs : List (SystemSnapshot → SystemSnapshot)}
      (h : EachEvolves (SystemSnapshot.shape.Replaced SystemSnapshot.Retyping) vs vs' gs) :
      Retyping "systems" (.list vs) (.list vs')
        fun r => { r with systems := eachAfter gs r.systems }

inductive Snapshot.Wide : Shape.Marks
  | systems {vs : List Tree} {v : Tree} (hv : v ∈ vs)
      (h : SystemSnapshot.shape.GivesMarked SystemSnapshot.Wide v) : Wide "systems" (.list vs)

/-- A dump with a sensor whose type does not fit 16 bits. -/
abbrev Snapshot.HasWideType : Tree → Prop := Snapshot.shape.GivesMarked Snapshot.Wide

theorem SensorRecord.refusesMarked : SensorRecord.shape.RefusesMarked SensorRecord.Wide := by
  rintro _ _ ⟨-, hwide⟩
  exact ⟨typeField, by simp [shape], rfl, (Reader.refuses_uint16 hwide).map _⟩

theorem SystemSnapshot.refusesMarked : SystemSnapshot.shape.RefusesMarked SystemSnapshot.Wide := by
  rintro _ _ ⟨hv, h⟩
  exact ⟨sensorsField, by simp [shape], rfl,
    SensorRecord.lawful.refuses_items SensorRecord.refusesMarked hv h⟩

theorem Snapshot.refusesMarked : Snapshot.shape.RefusesMarked Snapshot.Wide := by
  rintro _ _ ⟨hv, h⟩
  exact ⟨systemsField, by simp [shape], rfl,
    SystemSnapshot.lawful.refuses_items SystemSnapshot.refusesMarked hv h⟩

theorem SensorRecord.follows_retyping :
    SensorRecord.shape.Follows (SensorRecord.Retyping.unmarked SensorRecord.Wide) := by
  rintro _ _ _ _ ⟨⟨d, hwhole⟩, hnarrow⟩ htext -
  have hfits : Nat.ofDigitChars 10 _ 0 < 65536 :=
    Nat.not_le.mp fun hwide => hnarrow (.type hwhole hwide)
  have htakes := Reader.takes_uint16 hwhole hfits
  refine ⟨typeField, by simp [shape], rfl, fun change hchange => ?_⟩
  refine Shape.takes_edited hchange Reader.settles_uint16 htext (fun _ _ => htakes) fun _ r => ?_
  rw [DeviceType.ofCode_ofNat hfits]

theorem SystemSnapshot.follows_retyping :
    SystemSnapshot.shape.Follows (SystemSnapshot.Retyping.unmarked SystemSnapshot.Wide) := by
  rintro _ _ _ _ ⟨⟨h⟩, hnarrow⟩ htext htext'
  refine ⟨sensorsField, by simp [shape], rfl, fun change hchange => ?_⟩
  exact SensorRecord.lawful.takes_items SensorRecord.follows_retyping h
    (fun v hv hmarked => hnarrow (.sensors hv hmarked)) htext htext' hchange fun _ _ => rfl

theorem Snapshot.follows_retyping :
    Snapshot.shape.Follows (Snapshot.Retyping.unmarked Snapshot.Wide) := by
  rintro _ _ _ _ ⟨⟨h⟩, hnarrow⟩ htext htext'
  refine ⟨systemsField, by simp [shape], rfl, fun change hchange => ?_⟩
  exact SystemSnapshot.lawful.takes_items SystemSnapshot.follows_retyping h
    (fun v hv hmarked => hnarrow (.systems hv hmarked)) htext htext' hchange fun _ _ => rfl

/-- Let a text of a tree decode, and let the numbers that are the types of some sensors be replaced
by any whole numbers from zero up, in objects and in lists.  If all types fit 16 bits, each text of
the new tree decodes to what the first text does, but that the types of these sensors are those of
the new numbers, which is `unknown` for numbers that no type has.  If one does not fit, no text of
the new tree decodes. -/
theorem Snapshot.retyped_decodes_unless_wide {v v' : Tree} {revise : Snapshot → Snapshot}
    (h : Snapshot.shape.Replaced Snapshot.Retyping v v' revise) {text text' : List Char}
    (htext : v.TextOf text) (htext' : v'.TextOf text') {s : Snapshot}
    (hs : Snapshot.ofText? text = .ok s) :
    (¬Snapshot.HasWideType v' → Snapshot.ofText? text' = .ok (revise s)) ∧
    (Snapshot.HasWideType v' → ∃ fault, Snapshot.ofText? text' = .error fault) ∧
    ∀ n, (∀ t ∈ DeviceType.known, t.code.toNat = n → DeviceType.ofNumber n = t) ∧
      ((∀ t ∈ DeviceType.known, t.code.toNat ≠ n) → DeviceType.ofNumber n = .unknown) := by
  refine ⟨fun hnarrow => ?_, fun hwide => ?_, DeviceType.ofNumber_spec⟩
  · have htracks := Snapshot.lawful.tracks_unmarked Snapshot.follows_retyping
    exact htracks.decode_eq Snapshot.lawful.settles_read ⟨h, hnarrow⟩ htext htext' hs
  · exact (Snapshot.lawful.refuses_marked Snapshot.refusesMarked hwide).exists_fault htext'

/-- A sensor whose type is spelled so. -/
def doorSensor (d : List Char) : Tree :=
  .object [("serial".toList, .text "s1".toList), ("name".toList, .text "Door".toList),
    ("type".toList, .number d)]

/-- A dump of a system with sensors. -/
def sensorsDump (vs : List Tree) : Tree :=
  .object [("systems".toList, .list [.object [("system_id".toList, .number ['1']),
    ("version".toList, .number ['3']), ("state".toList, .text "off".toList),
    ("sensors".toList, .list vs)]])]

theorem spells_of_sensorsDump :
    ∀ text ∈ ["systems", "system_id", "version", "state", "off", "sensors", "serial", "s1", "name",
      "Door", "type"],
    Spelling text.toList ∧ Spells text.toList text.toList := by
  intro text htext
  refine spells_self ?_
  revert text
  decide

theorem wholePart_of_all {c : Char} {ds : List Char}
    (h : c ≠ '0' ∧ (c :: ds).all Char.isDigit = true) :
    WholePart (c :: ds) :=
  .digits h.1 ⟨List.cons_ne_nil c ds, List.all_eq_true.mp h.2⟩

theorem wellSpelled_number {d : List Char} (h : WholePart d) : (Tree.number d).WellSpelled := by
  rw [← List.append_nil d]
  exact .number (@NumberText.parts [] d [] [] (by decide) h .none .none)

theorem sensorsDump_wellSpelled {ds : List (List Char)} (hds : ∀ d ∈ ds, WholePart d) :
    (sensorsDump (ds.map doorSensor)).WellSpelled := by
  have hplain := fun text htext => (spells_of_sensorsDump text htext).1
  have hdoor : ∀ d ∈ ds, (doorSensor d).WellSpelled := by
    intro d hd
    simp only [doorSensor, Tree.wellSpelled_object, List.forall_mem_cons, List.not_mem_nil,
      false_implies, implies_true, and_true]
    and_intros <;> first
      | exact hplain _ (by decide)
      | exact .text (hplain _ (by decide))
      | exact wellSpelled_number (hds d hd)
  simp only [sensorsDump, Tree.wellSpelled_list, Tree.wellSpelled_object, List.forall_mem_cons,
    List.forall_mem_map, List.not_mem_nil, false_implies, implies_true, and_true]
  and_intros <;> first
    | exact hdoor
    | exact hplain _ (by decide)
    | exact .text (hplain _ (by decide))
    | exact wellSpelled_number (wholePart_of_all (by decide))

theorem doorSensor_retyped (d : List Char) {d' : List Char} (h : WholePart d') :
    SensorRecord.shape.Replaced SensorRecord.Retyping (doorSensor d) (doorSensor d')
      fun r => { r with deviceType := .ofNumber (Nat.ofDigitChars 10 d' 0) } :=
  .object (.keep _ (.keep _ (.edit (spells_of_sensorsDump "type" (by decide)).2 (.type d h) .nil)))

theorem sensorsDump_retyped {vs vs' : List Tree} {gs : List (SensorRecord → SensorRecord)}
    (h : EachEvolves (SensorRecord.shape.Replaced SensorRecord.Retyping) vs vs' gs) :
    Snapshot.shape.Replaced Snapshot.Retyping (sensorsDump vs) (sensorsDump vs') fun s =>
      { s with systems :=
        eachAfter [fun r => { r with sensors := eachAfter gs r.sensors }] s.systems } := by
  have hspells := fun text htext => (spells_of_sensorsDump text htext).2
  have hsystem := @Shape.Replaced.object _ SystemSnapshot.shape SystemSnapshot.Retyping _ _ _
    (.keep ("system_id".toList, .number ['1']) (.keep ("version".toList, .number ['3'])
      (.keep ("state".toList, .text "off".toList)
        (.edit (hspells "sensors" (by decide)) (.sensors h) .nil))))
  exact .object (.edit (hspells "systems" (by decide)) (.systems (.cons hsystem .nil)) .nil)

theorem doorSensor_wide_iff {d : List Char} (h : WholePart d) :
    SensorRecord.shape.GivesMarked SensorRecord.Wide (doorSensor d) ↔
      65536 ≤ Nat.ofDigitChars 10 d 0 := by
  refine ⟨fun hsensor => ?_, fun hwide => ?_⟩
  · cases hsensor with
    | member hm _ hmarked =>
      simp only [List.mem_cons, List.not_mem_nil, or_false] at hm
      rcases hm with rfl | rfl | rfl <;> cases hmarked
      assumption
  · exact .member (List.mem_of_getLast? rfl) (spells_of_sensorsDump "type" (by decide)).2
      (.type h hwide)

theorem sensorsDump_wide_iff {vs : List Tree} : Snapshot.HasWideType (sensorsDump vs) ↔
    ∃ v ∈ vs, SensorRecord.shape.GivesMarked SensorRecord.Wide v := by
  have hspells := fun text htext => (spells_of_sensorsDump text htext).2
  refine ⟨fun hdump => ?_, fun ⟨v, hv, hwide⟩ => ?_⟩
  · cases hdump with
    | member hm _ hsystems =>
      obtain rfl := List.mem_singleton.mp hm
      obtain ⟨hv, hsystem⟩ := hsystems
      obtain rfl := List.mem_singleton.mp hv
      cases hsystem with
      | member hm _ hsensors =>
        simp only [List.mem_cons, List.not_mem_nil, or_false] at hm
        rcases hm with rfl | rfl | rfl | rfl <;> cases hsensors
        exact ⟨_, ‹_›, ‹_›⟩
  · exact .member List.mem_cons_self (hspells "systems" (by decide)) (.systems List.mem_cons_self
      (.member (List.mem_of_getLast? rfl) (hspells "sensors" (by decide)) (.sensors hv hwide)))

/-- A number that no type has makes the sensor unknown; with one of more than 16 bits nothing
decodes. -/
theorem Snapshot.retyped_decodes_unless_wide_newType :
    Snapshot.ofText? (sensorsDump [doorSensor "42".toList]).compact =
      .ok ⟨"", [⟨1, 3, .off, [⟨"s1", "Door", .unknown, false, false⟩], []⟩]⟩ ∧
    ∃ fault, Snapshot.ofText? (sensorsDump [doorSensor "65536".toList]).compact = .error fault := by
  have hentry : WholePart ['5'] := wholePart_of_all (by decide)
  have hother : WholePart "42".toList := wholePart_of_all (by decide)
  have hlarge : WholePart "65536".toList := wholePart_of_all (by decide)
  have htext : ∀ d, WholePart d →
      (sensorsDump [doorSensor d]).TextOf (sensorsDump [doorSensor d]).compact := fun d hd =>
    (@sensorsDump_wellSpelled [d] (List.forall_mem_singleton.mpr hd)).textOf_compact (.none _)
  have hretyped := fun d hd => sensorsDump_retyped (.cons (@doorSensor_retyped ['5'] d hd) .nil)
  have hread : Snapshot.ofText? (sensorsDump [doorSensor ['5']]).compact =
      .ok ⟨"", [⟨1, 3, .off, [⟨"s1", "Door", .entry, false, false⟩], []⟩]⟩ := by
    decide +kernel
  obtain ⟨hnarrow, -, -⟩ := Snapshot.retyped_decodes_unless_wide (hretyped _ hother)
    (htext _ hentry) (htext _ hother) hread
  obtain ⟨-, hwide, -⟩ := Snapshot.retyped_decodes_unless_wide (hretyped _ hlarge)
    (htext _ hentry) (htext _ hlarge) hread
  refine ⟨(hnarrow ?_).trans ?_, hwide ?_⟩
  · simp only [sensorsDump_wide_iff, List.mem_singleton, exists_eq_left, doorSensor_wide_iff hother]
    decide
  · decide +kernel
  · simp only [sensorsDump_wide_iff, List.mem_singleton, exists_eq_left, doorSensor_wide_iff hlarge]
    decide

/-- The type of one sensor becomes a number of more than 16 bits, and the whole dump does not
decode. -/
theorem Snapshot.wide_type_breaks_dump :
    (∃ revise, Snapshot.shape.Replaced Snapshot.Retyping (sensorsDump [doorSensor ['5']])
      (sensorsDump [doorSensor "65536".toList]) revise) ∧
    Snapshot.ofText? (sensorsDump [doorSensor ['5']]).compact =
      .ok ⟨"", [⟨1, 3, .off, [⟨"s1", "Door", .entry, false, false⟩], []⟩]⟩ ∧
    Snapshot.ofText? (sensorsDump [doorSensor "65536".toList]).compact =
      .error (.wrongValue (.whole 65536) (.unsigned 16)) := by
  have hlarge : WholePart "65536".toList := wholePart_of_all (by decide)
  refine ⟨⟨_, sensorsDump_retyped (.cons (doorSensor_retyped ['5'] hlarge) .nil)⟩, ?_, ?_⟩
  · decide +kernel
  · decide +kernel

end AlarmBridge
