/-! Values under keys, kept in ascending order of the keys.  `ofList` gives each key the last value
that has it, and `replace` changes values without adding keys, so what a roster holds is fixed when
it is made. -/

set_option autoImplicit false

namespace AlarmBridge

/-- Values under distinct keys in ascending order. -/
structure Roster (κ α : Type) [Ord κ] where
  entries : List (κ × α)
  ascending : entries.Pairwise (fun a b => compare a.1 b.1 = .lt)

namespace Roster

variable {κ α : Type} [Ord κ]

instance [DecidableEq κ] [DecidableEq α] : DecidableEq (Roster κ α) := fun r r' =>
  decidable_of_decidable_of_iff (p := r.entries = r'.entries) (by cases r; cases r'; simp)

/-- Entries with a value put under a key, in the place of the value there or in order. -/
def insertEntry (k : κ) (v : α) : List (κ × α) → List (κ × α)
  | [] => [(k, v)]
  | e :: es =>
    match compare k e.1 with
    | .lt => (k, v) :: e :: es
    | .eq => (k, v) :: es
    | .gt => e :: insertEntry k v es

theorem mem_insertEntry {k : κ} {v : α} {es : List (κ × α)} {x : κ × α}
    (h : x ∈ insertEntry k v es) : x = (k, v) ∨ x ∈ es := by
  induction es with
  | nil => simpa [insertEntry] using h
  | cons e es ih =>
    rw [insertEntry] at h
    split at h
    · simpa using h
    · simp only [List.mem_cons] at h ⊢
      exact h.imp id Or.inr
    · simp only [List.mem_cons] at h ⊢
      rcases h with h | h
      · exact .inr (.inl h)
      · exact (ih h).imp id Or.inr

variable [Std.TransOrd κ]

theorem ascending_insertEntry (k : κ) (v : α) {es : List (κ × α)}
    (h : es.Pairwise (fun a b => compare a.1 b.1 = .lt)) :
    (insertEntry k v es).Pairwise (fun a b => compare a.1 b.1 = .lt) := by
  induction es with
  | nil => simp [insertEntry]
  | cons e es ih =>
    obtain ⟨he, hes⟩ := List.pairwise_cons.1 h
    rw [insertEntry]
    split
    · next hc =>
      refine List.pairwise_cons.2 ⟨fun x hx => ?_, h⟩
      rcases List.mem_cons.1 hx with rfl | hx
      · exact hc
      · exact Std.TransCmp.lt_trans hc (he x hx)
    · next hc =>
      exact List.pairwise_cons.2 ⟨fun x hx => Std.TransCmp.lt_of_eq_of_lt hc (he x hx), hes⟩
    · next hc =>
      refine List.pairwise_cons.2 ⟨fun x hx => ?_, ih hes⟩
      rcases mem_insertEntry hx with rfl | hx
      · exact Std.OrientedCmp.lt_of_gt hc
      · exact he x hx

def empty : Roster κ α := ⟨[], .nil⟩

def insert (r : Roster κ α) (k : κ) (v : α) : Roster κ α :=
  ⟨insertEntry k v r.entries, ascending_insertEntry k v r.ascending⟩

/-- The last value of each key. -/
def ofList (key : α → κ) (vs : List α) : Roster κ α :=
  vs.foldl (fun r v => r.insert (key v) v) empty

omit [Std.TransOrd κ]

/-- The keys, ascending. -/
def keys (r : Roster κ α) : List κ := r.entries.map (·.1)

/-- The values in order of their keys. -/
def values (r : Roster κ α) : List α := r.entries.map (·.2)

variable [DecidableEq κ]

def get? (r : Roster κ α) (k : κ) : Option α := (r.entries.find? fun e => e.1 = k).map (·.2)

def contains (r : Roster κ α) (k : κ) : Bool := r.entries.any fun e => e.1 = k

/-- The value under a key changed; nothing where the key has none. -/
def modify (r : Roster κ α) (k : κ) (f : α → α) : Roster κ α where
  entries := r.entries.map fun e => if e.1 = k then (e.1, f e.2) else e
  ascending := by
    refine List.pairwise_map.2 (r.ascending.imp fun h => ?_)
    split <;> split <;> exact h

/-- The value under a key replaced; nothing where the key has none. -/
def replace (r : Roster κ α) (k : κ) (v : α) : Roster κ α := r.modify k fun _ => v

end Roster

end AlarmBridge
