import AlarmBridge.Proofs.Json.Sequence

/-! Readers of typed values.  A reader decodes a value if it takes every text of it, past any
blanks, to one result.  Lists are decoded item by item, and records from objects whose members are
fields of theirs, in any order. -/

set_option autoImplicit false

namespace AlarmBridge.Json

variable {α β : Type}

/-- The reader takes every text of the value to this result. -/
def Decodes (r : Reader α) (v : Value) (a : α) : Prop :=
  ∀ s t u, Blanks s t → ValueText t v u → r.run s = .ok (a, u)

/-- A text of a value starts neither with a blank nor with the end of a list. -/
theorem ValueText.head {s t : List Char} {v : Value} (h : ValueText s v t) :
    ∃ c u, s = c :: u ∧ isSpace c = false ∧ c ≠ ']' := by
  cases h with
  | number n _ =>
    obtain ⟨c, ds, hds, hc⟩ := toString_eq_cons n
    refine ⟨c, ds ++ t, by rw [hds, List.cons_append], isSpace_of_starts hc, ?_⟩
    rcases hc with rfl | hc
    · decide
    · exact ne_of_isDigit hc rfl
  | _ => exact ⟨_, _, rfl, rfl, by decide⟩

namespace Decodes

variable {r : Reader α} {v : Value} {a : α}

theorem map (h : Decodes r v a) (f : α → β) : Decodes (f <$> r) v (f a) :=
  fun s t u hs ht => Reader.run_map (h s t u hs ht) f

theorem textFor (wanted : Wanted) (text : String) :
    Decodes (Reader.textFor wanted) (.text text) text.toList := by
  intro s t u hs ht
  cases ht with
  | text h =>
    unfold Reader.textFor
    rw [Reader.run_expecting hs rfl rfl]
    exact Reader.run_stringBody h

theorem text (text : String) : Decodes Reader.text (.text text) text := by
  have h := (textFor .text text).map String.ofList
  rwa [String.ofList_toList] at h

theorem boolean (value : Bool) : Decodes Reader.boolean (.boolean value) value := by
  intro s t u hs ht
  cases ht with
  | isTrue =>
    unfold Reader.boolean
    rw [Reader.run_expecting hs rfl rfl]
    rfl
  | isFalse =>
    unfold Reader.boolean
    rw [Reader.run_expecting hs rfl rfl]
    rfl

theorem unsigned {bits n : Nat} (hbits : bits ≤ 64) (hn : n < Nat.pow 2 bits) :
    Decodes (Reader.unsigned bits) (.number n) n := by
  intro s t u hs ht
  cases ht with
  | number _ h =>
    have hdigits : (toString (n : Int)).toList = Nat.toDigits 10 n := Nat.toList_repr
    obtain ⟨c, ds, hds, hc⟩ := toString_eq_cons n
    have hstart : Reader.startsNumber c = true := by simpa [Reader.startsNumber] using hc
    have hfits : n ≤ maxSignificand := by
      have hle : Nat.pow 2 bits ≤ Nat.pow 2 64 := Nat.pow_le_pow_right (by decide) hbits
      have hmax : maxSignificand + 1 = Nat.pow 2 64 := rfl
      omega
    have hvalue : Nat.ofDigitChars 10 (Nat.toDigits 10 n) 0 = n :=
      Nat.ofDigitChars_toDigits (by decide) (by decide)
    have hnumber := Reader.run_number (wholePart_toDigits n) (hvalue.symm ▸ hfits) h
    rw [hds, List.cons_append] at hs
    rw [hvalue, ← hdigits, hds, List.cons_append] at hnumber
    unfold Reader.unsigned
    rw [Reader.run_expecting hs (isSpace_of_starts hc) (if_pos hstart), Reader.run_bind hnumber]
    simp only [Int.natCast_nonneg, Int.toNat_natCast, hn, and_self, if_true]
    rfl

theorem uint8 (n : UInt8) : Decodes Reader.uint8 (.number n.toNat) n := by
  have h := (unsigned (by decide) n.toNat_lt).map UInt8.ofNat
  rwa [UInt8.ofNat_toNat] at h

theorem uint16 (n : UInt16) : Decodes Reader.uint16 (.number n.toNat) n := by
  have h := (unsigned (by decide) n.toNat_lt).map UInt16.ofNat
  rwa [UInt16.ofNat_toNat] at h

theorem uint64 (n : UInt64) : Decodes Reader.uint64 (.number n.toNat) n := by
  have h := (unsigned (by decide) n.toNat_lt).map UInt64.ofNat
  rwa [UInt64.ofNat_toNat] at h

end Decodes

theorem headed_valueText : Headed ValueText := ValueText.head

theorem Decodes.list {item : Reader α} {vs : List Value} {as : List α}
    (h : List.Forall₂ (Decodes item) vs as) : Decodes (Reader.list item) (.list vs) as := by
  intro s t u hs ht
  cases ht with
  | list hitems =>
    have hlength := hitems.length_lt fun _ _ _ _ => ValueText.length_lt
    exact Reader.run_list headed_valueText h hs hitems (by omega)

theorem Decodes.list_map {item : Reader α} {toJson : α → Value}
    (h : ∀ a, Decodes item (toJson a) a) (as : List α) :
    Decodes (Reader.list item) (.list (as.map toJson)) as :=
  list (List.forall₂_map_left_iff.mpr (List.forall₂_same.mpr fun a _ => h a))

namespace Shape

variable {shape : Shape α}

/-- A member of an object is a field of the record, which its value changes in this way. -/
def Changes (shape : Shape α) (m : String × Value) (change : α → α) : Prop :=
  ∃ f ∈ shape.fields, f.name = m.1 ∧ Decodes f.read m.2 change

/-- Members that are fields have these as their effects. -/
theorem exists_effects {ms : List (String × Value)} {changes : List (α → α)}
    (h : List.Forall₂ shape.Changes ms changes) :
    ∃ effects, List.Forall₂ (shape.HasEffect NameText ValueText) ms effects ∧
      effects.reduceOption.map (·.1) = ms.map (·.1) ∧
      ∀ r, after r effects = changes.foldl (fun r change => change r) r := by
  induction h with
  | nil => exact ⟨[], .nil, rfl, fun _ => rfl⟩
  | @cons m change _ _ hm _ ih =>
    obtain ⟨name, v⟩ := m
    obtain ⟨f, hf, hname, hvalue⟩ := hm
    obtain rfl : f.name = name := hname
    obtain ⟨effects, hms, hsame, hafter⟩ := ih
    exact ⟨some (f.name, change) :: effects, .cons (.change hf (fun _ _ h => h) hvalue) hms,
      congrArg (f.name :: ·) hsame, fun r => hafter (change r)⟩

/-- A record is decoded from an object with fields of it in any order, each once and none that is
required left out. -/
theorem decodes (hnames : shape.Named) {ms : List (String × Value)}
    {changes : List (α → α)} (hms : List.Forall₂ shape.Changes ms changes)
    (hnew : (ms.map (·.1)).Nodup)
    (hgiven : ∀ f ∈ shape.fields, f.presence = .required → f.name ∈ ms.map (·.1)) :
    Decodes shape.read (.object ms) (changes.foldl (fun r change => change r) shape.blank) := by
  intro s t u hs ht
  cases ht with
  | object hmembers =>
    obtain ⟨effects, heach, hsame, hafter⟩ := exists_effects hms
    have hlength := hmembers.length_lt StringText.length_lt fun _ _ _ _ => ValueText.length_lt
    have heffects : shape.HaveEffects NameText ValueText ms effects :=
      ⟨heach, hsame ▸ hnew, fun f hf hrequired => hsame ▸ hgiven f hf hrequired⟩
    rw [← hafter]
    exact run_read hnames heffects hs hmembers (by omega)

/-- The members that name fields in order, with the values that change a record as the parts say. -/
def membersOf (fields : List (Field α)) (parts : List (Value × (α → α))) : List (String × Value) :=
  fields.zipWith (fun f part => (f.name, part.1)) parts

/-- Each of some fields decodes the value of its part. -/
inductive Parts : List (Field α) → List (Value × (α → α)) → Prop
  | nil : Parts [] []
  | cons {β : Type} {name : String} {presence : Presence} {read : Reader β} {put : β → α → α}
      {v : Value} {b : β} {fields : List (Field α)} {parts : List (Value × (α → α))}
      (h : Decodes read v b) (hrest : Parts fields parts) :
      Parts (.of name presence read put :: fields) ((v, put b) :: parts)

theorem changes_membersOf {fields : List (Field α)} {parts : List (Value × (α → α))}
    (h : Parts fields parts) (hfields : ∀ f ∈ fields, f ∈ shape.fields) :
    List.Forall₂ shape.Changes (membersOf fields parts) (parts.map (·.2)) ∧
      (membersOf fields parts).map (·.1) = fields.map (·.name) := by
  induction h with
  | nil => exact ⟨.nil, rfl⟩
  | @cons _ name presence read put v b fields parts h _ ih =>
    obtain ⟨hchanges, hsame⟩ := ih fun f hf => hfields f (List.mem_cons_of_mem _ hf)
    exact ⟨.cons ⟨_, hfields _ List.mem_cons_self, rfl, h.map put⟩ hchanges,
      congrArg (name :: ·) hsame⟩

/-- A record is decoded from an object with all its fields in order. -/
theorem decodes_membersOf (shape : Shape α) (hnames : shape.Named)
    {parts : List (Value × (α → α))} (h : Parts shape.fields parts) :
    Decodes shape.read (.object (membersOf shape.fields parts))
      (parts.foldl (fun r part => part.2 r) shape.blank) := by
  obtain ⟨hchanges, hsame⟩ := changes_membersOf h fun f hf => hf
  have hdecodes := decodes hnames hchanges (hsame ▸ hnames) fun f hf _ =>
    hsame ▸ List.mem_map_of_mem hf
  rwa [List.foldl_map] at hdecodes

end Shape

/-- A reader that decodes a value decodes its whole texts. -/
theorem Decodes.decode_eq {r : Reader α} {v : Value} {a : α} (h : Decodes r v a) {s : List Char}
    (hs : TextOf s v) : decode r s = .ok a := by
  obtain ⟨t, u, hbefore, hvalue, hafter⟩ := hs
  exact TakesBy.decode_eq h hbefore hvalue hafter

end AlarmBridge.Json
