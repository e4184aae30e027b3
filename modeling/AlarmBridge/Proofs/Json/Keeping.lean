import AlarmBridge.Proofs.Json.Settling

/-! Properties of records that are read.  What the blank record has, and what every field that is
read keeps, the record that is read has, whether it is read from an object or from a list. -/

set_option autoImplicit false

namespace AlarmBridge.Json

variable {α β : Type}

namespace Reader

theorem yields_expecting {wanted : Wanted} {read : Char → Option (Reader α)} {P : α → Prop}
    (h : ∀ c r, read c = some r → Yields r P) : Yields (expecting wanted read) P := by
  refine .after fun c => ?_
  cases c with
  | none => exact .throw _
  | some c =>
    cases hread : read c with
    | none =>
      exact fun s a t hrun => absurd hrun (by simpa only [hread] using run_mismatch_ne wanted _)
    | some r => simpa only [hread] using h c r hread

end Reader

/-- Changing a record in this way keeps the property. -/
def Preserves (P : α → Prop) (change : α → α) : Prop := ∀ r, P r → P (change r)

theorem Field.yields_of {name : String} {presence : Presence} {read : Reader β} {put : β → α → α}
    {P : α → Prop} {Q : β → Prop} (hread : Yields read Q) (hput : ∀ b, Q b → Preserves P (put b)) :
    Yields (Field.of name presence read put).read (Preserves P) :=
  hread.map hput

namespace Shape

variable {shape : Shape α} {P : α → Prop}

theorem yields_readListed {fields : List (Field α)}
    (hfields : ∀ f ∈ fields, Yields f.read (Preserves P)) {first : Bool} {acc : α} (hacc : P acc) :
    Yields (shape.readListed first acc fields) P := by
  induction fields generalizing first acc with
  | nil => exact .pure hacc
  | cons f fs ih =>
    refine .after fun more => ?_
    split
    · refine (hfields f List.mem_cons_self).bind fun change hchange => ?_
      exact ih (fun g hg => hfields g (List.mem_cons_of_mem _ hg)) (hchange acc hacc)
    · split
      · exact .pure hacc
      · exact .throw _

theorem yields_readMembers (hfields : ∀ f ∈ shape.fields, Yields f.read (Preserves P)) (fuel : Nat)
    {first : Bool} {met : List String} {acc : α} (hacc : P acc) :
    Yields (shape.readMembers fuel first met acc) fun p => P p.2 := by
  induction fuel generalizing first met acc with
  | zero => exact .throw _
  | succ fuel ih =>
    refine .after fun more => ?_
    split
    · refine .after fun name => ?_
      cases hfield : shape.field? name with
      | none => exact .after fun _ => .after fun _ => ih hacc
      | some f =>
        have hf : f ∈ shape.fields := List.mem_of_find?_eq_some hfield
        simp only
        split
        · exact .throw_bind _
        · refine .after fun _ => (hfields f hf).bind fun change hchange => ?_
          exact ih (hchange acc hacc)
    · exact .after fun _ => .pure hacc

theorem yields_read (hblank : P shape.blank)
    (hfields : ∀ f ∈ shape.fields, Yields f.read (Preserves P)) : Yields shape.read P := by
  refine Reader.yields_expecting fun c r hr => ?_
  split_ifs at hr with hlist hobject
  · obtain rfl := Option.some.inj hr
    exact .after fun _ => (yields_readListed hfields hblank).bind fun record hrecord =>
      .after fun _ => .pure hrecord
  · obtain rfl := Option.some.inj hr
    refine .after fun _ => .after fun s => (yields_readMembers hfields _ hblank).bind fun p hp => ?_
    simp only
    split
    · exact .throw _
    · exact .pure hp

end Shape

end AlarmBridge.Json
