import AlarmBridge.Roster
import Mathlib.Data.List.Basic
import Mathlib.Data.List.Sort

/-! Looking up in rosters.  A roster made from a list holds under each key the last value that has
it, and replacing values in turn leaves the last one of each key that the roster has.  A roster is
`Keyed` if every value stands under its own key; then what concerns one key is found under it
alone. -/

set_option autoImplicit false

namespace AlarmBridge.Roster

variable {κ α : Type} [Ord κ]

/-- Every value stands under its own key. -/
def Keyed (key : α → κ) (r : Roster κ α) : Prop := ∀ e ∈ r.entries, key e.2 = e.1

/-- The keys are those of the values. -/
theorem Keyed.keys_eq {key : α → κ} {r : Roster κ α} (h : r.Keyed key) :
    r.keys = r.values.map key := by
  unfold keys values
  rw [List.map_map]
  exact List.map_congr_left fun e he => (h e he).symm

section

variable [Std.TransOrd κ]

theorem ne_of_compare_eq_lt {a b : κ} (h : compare a b = .lt) : a ≠ b := by
  rintro rfl
  rw [Std.ReflOrd.compare_self] at h
  cases h

theorem Keyed.insert {key : α → κ} {r : Roster κ α} (h : r.Keyed key) (v : α) :
    (r.insert (key v) v).Keyed key := by
  intro e he
  rcases mem_insertEntry he with rfl | he
  · rfl
  · exact h e he

theorem keyed_ofList (key : α → κ) (vs : List α) : (ofList key vs).Keyed key := by
  have hempty : (empty : Roster κ α).Keyed key := by simp [Keyed, empty]
  exact List.foldlRecOn (motive := Keyed key) vs _ hempty fun r hr v _ => hr.insert v

/-- What comes of values of different keys is kept apart if it tells the key. -/
theorem Keyed.pairwise_flatMap {β : Type} {key : α → κ} {r : Roster κ α} (h : r.Keyed key)
    {f : α → List β} {p : β → κ} {R : β → β → Prop} (hR : ∀ x y, p x ≠ p y → R x y)
    (hf : ∀ v ∈ r.values, ∀ x ∈ f v, p x = key v) (heach : ∀ v ∈ r.values, (f v).Pairwise R) :
    (r.values.flatMap f).Pairwise R := by
  refine List.pairwise_flatMap.mpr ⟨heach, List.pairwise_map.mpr ?_⟩
  refine r.ascending.imp_of_mem fun {a b} ha hb hab x hx y hy => hR x y ?_
  rw [hf _ (List.mem_map_of_mem ha) x hx, hf _ (List.mem_map_of_mem hb) y hy, h a ha, h b hb]
  exact ne_of_compare_eq_lt hab

end

variable [DecidableEq κ]

theorem contains_eq {r : Roster κ α} {k : κ} : r.contains k = (r.get? k).isSome := by
  unfold contains get?
  rw [Option.isSome_map, List.isSome_find?]

/-- Changing a value leaves the keys. -/
theorem keys_modify (r : Roster κ α) (k : κ) (f : α → α) : (r.modify k f).keys = r.keys := by
  unfold keys modify
  rw [List.map_map]
  refine List.map_congr_left fun e _ => ?_
  show (if e.1 = k then (e.1, f e.2) else e).1 = e.1
  split <;> rfl

theorem Keyed.modify {key : α → κ} {r : Roster κ α} (h : r.Keyed key) (k : κ) {f : α → α}
    (hf : ∀ v, key v = k → key (f v) = k) : (r.modify k f).Keyed key := by
  intro changed hchanged
  obtain ⟨e, he, rfl⟩ := List.mem_map.mp hchanged
  split
  · next hk => exact (hf e.2 ((h e he).trans hk)).trans hk.symm
  · exact h e he

theorem keys_foldl_replace (key : α → κ) (vs : List α) (r : Roster κ α) :
    (vs.foldl (fun r v => r.replace (key v) v) r).keys = r.keys :=
  List.foldlRecOn (motive := fun r' => r'.keys = r.keys) vs _ rfl
    fun r' hr' v _ => (keys_modify r' (key v) fun _ => v).trans hr'

theorem Keyed.foldl_replace {key : α → κ} {r : Roster κ α} (h : r.Keyed key) (vs : List α) :
    (vs.foldl (fun r v => r.replace (key v) v) r).Keyed key :=
  List.foldlRecOn (motive := Keyed key) vs _ h fun _ hr v _ => hr.modify (key v) fun _ _ => rfl

theorem get?_modify (r : Roster κ α) (k : κ) (f : α → α) (k' : κ) :
    (r.modify k f).get? k' = if k' = k then (r.get? k').map f else r.get? k' := by
  unfold get? modify
  simp only
  induction r.entries with
  | nil => simp
  | cons e es ih =>
    by_cases hk' : e.1 = k' <;> by_cases hk : e.1 = k
    · have heq : k' = k := by rw [← hk', hk]
      simp [hk, heq]
    · have hne : k' ≠ k := by rw [← hk']; exact hk
      simp [hk', hne]
    · simpa [hk, hk', show ¬k = k' by rw [← hk]; exact hk'] using ih
    · simpa [hk, hk'] using ih

theorem get?_replace (r : Roster κ α) (k : κ) (v : α) (k' : κ) :
    (r.replace k v).get? k' = if k' = k then (r.get? k').map fun _ => v else r.get? k' :=
  get?_modify r k (fun _ => v) k'

/-- Of the values put in place of others under a key, the last stays. -/
theorem get?_foldl_replace (key : α → κ) (vs : List α) (r : Roster κ α) (k : κ) :
    (vs.foldl (fun r v => r.replace (key v) v) r).get? k =
      (r.get? k).map fun old => ((vs.filter (key · = k)).getLast?).getD old := by
  induction vs generalizing r with
  | nil => simp
  | cons v vs ih =>
    rw [List.foldl_cons, ih, get?_replace]
    by_cases hk : k = key v
    · subst hk
      simp only [if_true, Option.map_map, decide_true, List.filter_cons_of_pos,
        List.getLast?_cons, Option.getD_some]
      rfl
    · simp [hk, Ne.symm hk]

variable [Std.TransOrd κ]

section

variable [Std.LawfulEqOrd κ]

theorem find?_insertEntry (k : κ) (v : α) (es : List (κ × α)) (k' : κ) :
    (insertEntry k v es).find? (fun e => e.1 = k') =
      if k' = k then some (k, v) else es.find? fun e => e.1 = k' := by
  induction es with
  | nil =>
    by_cases hk : k' = k
    · simp [insertEntry, hk]
    · simp [insertEntry, hk, Ne.symm hk]
  | cons e es ih =>
    rw [insertEntry]
    split
    · by_cases hk : k' = k
      · simp [hk]
      · simp [hk, Ne.symm hk]
    · next heq =>
      obtain rfl : k = e.1 := Std.LawfulEqCmp.eq_of_compare heq
      by_cases hk : k' = e.1
      · simp [hk]
      · simp [hk, Ne.symm hk]
    · next hgt =>
      have hne : e.1 ≠ k := ne_of_compare_eq_lt (Std.OrientedCmp.lt_of_gt hgt)
      rw [List.find?_cons, List.find?_cons, ih]
      by_cases hk : k' = k
      · simp [hk, hne]
      · simp [hk]

theorem get?_insert (r : Roster κ α) (k : κ) (v : α) (k' : κ) :
    (r.insert k v).get? k' = if k' = k then some v else r.get? k' := by
  unfold get? insert
  rw [find?_insertEntry]
  split <;> rfl

theorem get?_foldl_insert (key : α → κ) (vs : List α) (r : Roster κ α) (k : κ) :
    (vs.foldl (fun r v => r.insert (key v) v) r).get? k =
      ((vs.filter (key · = k)).getLast?).or (r.get? k) := by
  induction vs generalizing r with
  | nil => simp
  | cons v vs ih =>
    rw [List.foldl_cons, ih, get?_insert]
    by_cases hk : k = key v
    · simp [hk, List.getLast?_cons]
    · simp [hk, Ne.symm hk]

theorem get?_ofList (key : α → κ) (vs : List α) (k : κ) :
    (ofList key vs).get? k = (vs.filter (key · = k)).getLast? := by
  rw [ofList, get?_foldl_insert]
  exact Option.or_none

/-- A roster made from a list has a value of every key in it. -/
theorem exists_get?_ofList (key : α → κ) {vs : List α} {v : α} (hv : v ∈ vs) :
    ∃ w ∈ vs, key w = key v ∧ (ofList key vs).get? (key v) = some w := by
  rw [get?_ofList]
  have hmem : v ∈ vs.filter (key · = key v) := List.mem_filter.mpr ⟨hv, decide_eq_true rfl⟩
  have hw := List.getLast?_eq_some_getLast (List.ne_nil_of_mem hmem)
  obtain ⟨hmem, hkey⟩ := List.mem_filter.mp (List.mem_of_getLast? hw)
  exact ⟨_, hmem, of_decide_eq_true hkey, hw⟩

/-- A roster made from a list keeps a value whose key no other has. -/
theorem get?_ofList_of_unique {key : α → κ} {vs : List α} {v : α} (hv : v ∈ vs)
    (hunique : ∀ w ∈ vs, key w = key v → w = v) : (ofList key vs).get? (key v) = some v := by
  obtain ⟨w, hw, hkey, hget⟩ := exists_get?_ofList key hv
  rw [hget, hunique w hw hkey]

/-- A roster made from a list keeps every value exactly if no two share a key. -/
theorem get?_ofList_self_iff {key : α → κ} {vs : List α} :
    (∀ v ∈ vs, (ofList key vs).get? (key v) = some v) ↔
      ∀ v ∈ vs, ∀ w ∈ vs, key v = key w → v = w := by
  constructor
  · intro h v hv w hw hkey
    have hfound := h v hv
    rw [hkey, h w hw] at hfound
    exact (Option.some.inj hfound).symm
  · intro h v hv
    exact get?_ofList_of_unique hv fun w hw hkey => h w hw v hv hkey

end

theorem get?_eq_some_iff {r : Roster κ α} {k : κ} {v : α} :
    r.get? k = some v ↔ (k, v) ∈ r.entries := by
  obtain ⟨es, hes⟩ := r
  unfold get?
  simp only
  induction es with
  | nil => simp
  | cons e es ih =>
    obtain ⟨he, hes⟩ := List.pairwise_cons.mp hes
    rw [List.find?_cons, List.mem_cons]
    by_cases hk : e.1 = k
    · have hrest : (k, v) ∉ es := fun hmem => ne_of_compare_eq_lt (he _ hmem) hk
      simp only [hk, decide_true, Option.map_some, Option.some.injEq, hrest, or_false]
      constructor
      · rintro rfl
        rw [← hk]
      · intro h
        rw [← h]
    · have hhead : (k, v) ≠ e := by
        rintro rfl
        exact hk rfl
      simp only [hk, decide_false, hhead, false_or]
      exact ih hes

theorem isSome_get?_iff {r : Roster κ α} {k : κ} : (r.get? k).isSome ↔ k ∈ r.keys := by
  rw [Option.isSome_iff_exists, keys, List.mem_map]
  constructor
  · rintro ⟨v, hv⟩
    exact ⟨(k, v), get?_eq_some_iff.mp hv, rfl⟩
  · rintro ⟨⟨k, v⟩, he, rfl⟩
    exact ⟨v, get?_eq_some_iff.mpr he⟩

/-- Rosters that hold the same under every key are the same. -/
theorem ext_get? {r r' : Roster κ α} (h : ∀ k, r.get? k = r'.get? k) : r = r' := by
  have hirrefl : Std.Irrefl fun a b : κ × α => compare a.1 b.1 = .lt :=
    ⟨fun a ha => ne_of_compare_eq_lt ha rfl⟩
  have hantisymm : Std.Antisymm fun a b : κ × α => compare a.1 b.1 = .lt :=
    ⟨fun a b hab hba => absurd (Std.TransCmp.lt_trans hab hba) (hirrefl.irrefl a)⟩
  have hentries : r.entries = r'.entries := by
    refine r.ascending.eq_of_mem_iff r'.ascending ?_
    rintro ⟨k, v⟩
    rw [← get?_eq_some_iff, ← get?_eq_some_iff, h]
  obtain ⟨entries, ascending⟩ := r
  obtain ⟨entries', ascending'⟩ := r'
  cases hentries
  rfl

theorem mem_values_of_get? {r : Roster κ α} {k : κ} {v : α} (h : r.get? k = some v) :
    v ∈ r.values :=
  List.mem_map.mpr ⟨(k, v), get?_eq_some_iff.mp h, rfl⟩

namespace Keyed

variable {key : α → κ} {r : Roster κ α} (h : r.Keyed key)

include h

theorem get?_of_mem_values {v : α} (hv : v ∈ r.values) : r.get? (key v) = some v := by
  obtain ⟨e, he, rfl⟩ := List.mem_map.mp hv
  rw [h e he]
  exact get?_eq_some_iff.mpr he

theorem key_of_get? {k : κ} {v : α} (hv : r.get? k = some v) : key v = k :=
  h (k, v) (get?_eq_some_iff.mp hv)

/-- What comes of the values of one key only comes of the one that stands under it. -/
theorem flatMap_values {β : Type} {k : κ} {f : α → List β}
    (hf : ∀ v ∈ r.values, key v ≠ k → f v = []) :
    r.values.flatMap f = (r.get? k).toList.flatMap f := by
  obtain ⟨es, hes⟩ := r
  unfold values get? at *
  simp only at *
  induction es with
  | nil => simp
  | cons e es ih =>
    obtain ⟨he, hes⟩ := List.pairwise_cons.mp hes
    have hkey : key e.2 = e.1 := h e List.mem_cons_self
    have hrest : (es.map (·.2)).flatMap f =
        ((es.find? fun e => e.1 = k).map (·.2)).toList.flatMap f :=
      ih hes (fun e he => h e (List.mem_cons_of_mem _ he))
        fun v hv => hf v (List.mem_cons_of_mem _ hv)
    rw [List.map_cons, List.flatMap_cons, hrest, List.find?_cons]
    by_cases hk : e.1 = k
    · have hnone : es.find? (fun e => decide (e.1 = k)) = none := by
        refine List.find?_eq_none.mpr fun x hx hxk => ?_
        have hkx : x.1 = k := by simpa using hxk
        exact ne_of_compare_eq_lt (he x hx) (hk.trans hkx.symm)
      simp [hk, hnone]
    · rw [hf e.2 List.mem_cons_self (by rw [hkey]; exact hk)]
      simp [hk]

end Keyed

end AlarmBridge.Roster
