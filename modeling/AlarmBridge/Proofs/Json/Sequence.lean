import AlarmBridge.Proofs.Json.Reading
import Mathlib.Data.List.Forall2
import Mathlib.Data.List.Nodup
import Mathlib.Data.List.ReduceOption

/-! Lists and objects, whatever the texts of their items and values are.  A list is read item by
item.  In an object the fields of a record are read, each once and in any order, and other members
are left out. -/

set_option autoImplicit false

namespace AlarmBridge.Json

section

variable {ν : Type} (Text : List Char → ν → List Char → Prop)

/-- Texts that start neither with a blank nor with the end of a list. -/
def Headed : Prop :=
  ∀ {s t : List Char} {v : ν}, Text s v t → ∃ c u, s = c :: u ∧ isSpace c = false ∧ c ≠ ']'

/-- The reader takes every text of the value, past any blanks, to this result. -/
def TakesBy {α : Type} (r : Reader α) (v : ν) (a : α) : Prop :=
  ∀ s t u, Blanks s t → Text t v u → r.run s = .ok (a, u)

end

variable {κ ν α β : Type} {Name : List Char → κ → List Char → Prop}
  {Text : List Char → ν → List Char → Prop} {s t u : List Char}

theorem TakesBy.map {r : Reader α} {v : ν} {a : α} (h : TakesBy Text r v a) (f : α → β) :
    TakesBy Text (f <$> r) v (f a) := fun s t u hs ht => Reader.run_map (h s t u hs ht) f

namespace Reader

theorem run_skip (c : Char) (s : List Char) : skip.run (c :: s) = .ok ((), s) := rfl

theorem run_moreItems_close (h : Blanks s (']' :: t)) (first : Bool) :
    (moreItems first).run s = .ok (false, ']' :: t) := by
  unfold moreItems
  rw [run_bind (run_peekPastSpaces h rfl)]
  rfl

theorem run_moreItems {first : Bool} {c : Char} (h : Separator first s (c :: t))
    (hc : isSpace c = false) (hclose : c ≠ ']') :
    (moreItems first).run s = .ok (true, c :: t) := by
  unfold moreItems
  cases h with
  | first h =>
    rw [run_bind (run_peekPastSpaces h hc)]
    simp only [hclose, if_false, if_true]
    rfl
  | comma h h' =>
    rw [run_bind (run_peekPastSpaces h rfl)]
    show (skip >>= _).run _ = _
    rw [run_bind (run_skip _ _), run_bind (run_peekPastSpaces h' hc)]
    simp only [hclose, if_false]
    rfl

theorem run_endList (h : Blanks s (']' :: t)) : endList.run s = .ok ((), t) := by
  unfold endList
  rw [run_bind (run_peekPastSpaces h rfl)]
  rfl

/-- The items of a list are read one by one, up to its end. -/
theorem run_itemsFrom (hhead : Headed Text) {item : Reader α} {vs : List ν} {as : List α}
    (hitems : List.Forall₂ (TakesBy Text item) vs as) {first : Bool} (h : Listed Text first s vs t)
    {fuel : Nat} (hfuel : vs.length < fuel) {before : List α} (hfirst : before.isEmpty = first) :
    (itemsFrom item fuel before).run s = .ok (before.reverse ++ as, ']' :: t) := by
  -- on the items, whose text is taken apart one by one beside them
  induction hitems generalizing s first fuel before with
  | nil =>
    obtain ⟨fuel, rfl⟩ := Nat.exists_eq_add_one.mpr (Nat.zero_lt_of_lt hfuel)
    cases h with
    | close h =>
      rw [itemsFrom, run_bind (run_moreItems_close h _), List.append_nil]
      rfl
  | cons hv _ ih =>
    obtain ⟨fuel, rfl⟩ := Nat.exists_eq_add_one.mpr (Nat.zero_lt_of_lt hfuel)
    cases h with
    | item hbefore hvalue hrest =>
      obtain ⟨c, u, rfl, hc, hclose⟩ := hhead hvalue
      rw [itemsFrom, hfirst, run_bind (run_moreItems hbefore hc hclose)]
      simp only [if_true]
      rw [run_bind (hv _ _ _ (.none _) hvalue), ih hrest (Nat.lt_of_succ_lt_succ hfuel) rfl,
        List.reverse_cons, List.append_assoc]
      rfl

theorem run_list (hhead : Headed Text) {item : Reader α} {vs : List ν} {as : List α}
    (hitems : List.Forall₂ (TakesBy Text item) vs as) (hs : Blanks s ('[' :: t))
    (h : Listed Text true t vs u) (hlength : vs.length < t.length) :
    (list item).run s = .ok (as, u) := by
  unfold list
  rw [run_expecting hs rfl rfl, run_bind (run_skip _ _), run_bind (run_get _),
    run_bind (run_itemsFrom hhead hitems h (Nat.lt_succ_of_lt hlength) rfl),
    run_bind (run_endList (.none _))]
  rfl

theorem run_moreMembers_close (h : Blanks s ('\x7d' :: t)) (first : Bool) :
    (moreMembers first).run s = .ok (false, '\x7d' :: t) := by
  unfold moreMembers
  rw [run_bind (run_peekPastSpaces h rfl)]
  rfl

theorem run_moreMembers {first : Bool} (h : Separator first s ('"' :: t)) :
    (moreMembers first).run s = .ok (true, t) := by
  unfold moreMembers
  cases h with
  | first h =>
    rw [run_bind (run_peekPastSpaces h rfl)]
    rfl
  | comma h h' =>
    rw [run_bind (run_peekPastSpaces h rfl)]
    show (skip >>= _).run _ = _
    rw [run_bind (run_skip _ _), run_bind (run_peekPastSpaces h' rfl)]
    rfl

theorem run_colon (h : Blanks s (':' :: t)) : colon.run s = .ok ((), t) := by
  unfold colon
  rw [run_bind (run_peekPastSpaces h rfl)]
  rfl

end Reader

namespace Shape

variable {shape : Shape α}

/-- The fields of a record have names of their own. -/
def Named (shape : Shape α) : Prop := (shape.fields.map (·.name)).Nodup

instance (shape : Shape α) : Decidable shape.Named := inferInstanceAs (Decidable (List.Nodup _))

theorem field?_eq_some (hnames : shape.Named) {f : Field α} (hf : f ∈ shape.fields) :
    shape.field? f.name.toList = some f := by
  obtain ⟨g, hg⟩ : ∃ g, shape.field? f.name.toList = some g :=
    Option.isSome_iff_exists.mp (List.find?_isSome.mpr ⟨f, hf, decide_eq_true rfl⟩)
  have hname : g.name = f.name := String.toList_inj.mp (by simpa using List.find?_some hg)
  rw [hg, List.inj_on_of_nodup_map hnames (List.mem_of_find?_eq_some hg) hf hname]

variable (Name Text)

/-- What a member of an object does to a record: nothing if no field has its name, and else it gives
the field of that name a value, which changes the record. -/
inductive HasEffect (shape : Shape α) : κ × ν → Option (String × (α → α)) → Prop
  | nothing {k : κ} {v : ν} {name : List Char} (hk : ∀ s t, Name s k t → StringText s name t)
      (hname : shape.field? name = none) (hv : TakesBy Text Reader.skipValue v ()) :
      HasEffect shape (k, v) none
  | change {k : κ} {v : ν} {f : Field α} {change : α → α} (hf : f ∈ shape.fields)
      (hk : ∀ s t, Name s k t → StringText s f.name.toList t) (hv : TakesBy Text f.read v change) :
      HasEffect shape (k, v) (some (f.name, change))

/-- What the members of an object do to a record, no field given twice and none that is required
left out. -/
structure HaveEffects (shape : Shape α) (ms : List (κ × ν))
    (effects : List (Option (String × (α → α)))) :
    Prop where
  each : List.Forall₂ (shape.HasEffect Name Text) ms effects
  once : (effects.reduceOption.map (·.1)).Nodup
  required : ∀ f ∈ shape.fields, f.presence = .required → f.name ∈ effects.reduceOption.map (·.1)

variable {Name Text}

/-- A record after what some members do to it. -/
def after (r : α) (effects : List (Option (String × (α → α)))) : α :=
  effects.reduceOption.foldl (fun r e => e.2 r) r

/-- The members of an object are read one by one, up to its end. -/
theorem run_readMembers (hnames : shape.Named) {ms : List (κ × ν)}
    {effects : List (Option (String × (α → α)))}
    (hms : List.Forall₂ (shape.HasEffect Name Text) ms effects) {first : Bool}
    (h : Membered Name Text first s ms t) {fuel : Nat} (hfuel : ms.length < fuel)
    {met : List String} (hnew : (effects.reduceOption.map (·.1)).Nodup)
    (hmet : ∀ e ∈ effects.reduceOption, e.1 ∉ met) (r : α) :
    (shape.readMembers fuel first met r).run s =
      .ok (((effects.reduceOption.map (·.1)).reverse ++ met, after r effects), t) := by
  induction hms generalizing s first fuel met r with
  | nil =>
    obtain ⟨fuel, rfl⟩ := Nat.exists_eq_add_one.mpr (Nat.zero_lt_of_lt hfuel)
    cases h with
    | close h =>
      rw [readMembers, Reader.run_bind (Reader.run_moreMembers_close h _)]
      rfl
  | @cons m effect ms effects hm _ ih =>
    obtain ⟨fuel, rfl⟩ := Nat.exists_eq_add_one.mpr (Nat.zero_lt_of_lt hfuel)
    cases h with
    | member hbefore hname hcolon hspace hv hrest =>
      have hfuel := Nat.lt_of_succ_lt_succ hfuel
      rw [readMembers, Reader.run_bind (Reader.run_moreMembers hbefore)]
      simp only [if_true]
      cases hm with
      | nothing hk hnone hskip =>
        rw [Reader.run_bind (Reader.run_stringBody (hk _ _ hname))]
        simp only [hnone]
        rw [Reader.run_bind (Reader.run_colon hcolon), Reader.run_bind (hskip _ _ _ hspace hv)]
        exact ih hrest hfuel hnew hmet r
      | @change _ _ f change hf hk htakes =>
        rw [List.reduceOption_cons_of_some] at hnew hmet ⊢
        have hfresh : f.name ∉ met := hmet _ List.mem_cons_self
        obtain ⟨hother, hnew⟩ := List.nodup_cons.mp hnew
        have hmet : ∀ e ∈ effects.reduceOption, e.1 ∉ f.name :: met := by
          intro e he hmem
          rcases List.mem_cons.mp hmem with hsame | hmem
          · exact hother (List.mem_map.mpr ⟨e, he, hsame⟩)
          · exact hmet e (List.mem_cons_of_mem _ he) hmem
        rw [Reader.run_bind (Reader.run_stringBody (hk _ _ hname))]
        simp only [field?_eq_some hnames hf, hfresh, if_false]
        rw [Reader.run_bind (Reader.run_colon hcolon), Reader.run_bind (htakes _ _ _ hspace hv),
          ih hrest hfuel hnew hmet, List.map_cons, List.reverse_cons, List.append_assoc]
        rfl

/-- A record is read from an object. -/
theorem run_read (hnames : shape.Named) {ms : List (κ × ν)}
    {effects : List (Option (String × (α → α)))} (heffects : shape.HaveEffects Name Text ms effects)
    (hs : Blanks s ('\x7b' :: t)) (h : Membered Name Text true t ms u)
    (hlength : ms.length < t.length) :
    shape.read.run s = .ok (after shape.blank effects, u) := by
  have hmissing : shape.missing? ((effects.reduceOption.map (·.1)).reverse ++ []) = none := by
    refine List.find?_eq_none.mpr fun f hf => ?_
    simpa using heffects.required f hf
  unfold Shape.read
  rw [Reader.run_expecting hs rfl rfl, Reader.run_bind (Reader.run_skip _ _),
    Reader.run_bind (Reader.run_get _),
    Reader.run_bind
      (run_readMembers hnames heffects.each h (Nat.lt_succ_of_lt hlength) heffects.once
        (by simp) _)]
  simp only [hmissing]
  rfl

end Shape

/-- What a reader takes it decodes from a whole text. -/
theorem TakesBy.decode_eq {r : Reader α} {v : ν} {a : α} (h : TakesBy Text r v a) (hs : Blanks s t)
    (ht : Text t v u) (hu : Blanks u []) : decode r s = .ok a := by
  have hblank : u.all isSpace = true := hu.all_isSpace rfl
  unfold decode
  rw [h s t u hs ht]
  show (if u.all isSpace then pure a else _) = _
  rw [if_pos hblank]
  rfl

end AlarmBridge.Json
