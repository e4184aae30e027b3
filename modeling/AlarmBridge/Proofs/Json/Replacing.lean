import AlarmBridge.Proofs.Json.Evolving

/-! Records in which values are replaced.  The values of some fields are replaced and all else stays
as it stands, in objects and in lists.  A record is then read as before but for what is replaced,
unless a field refuses its value: then the record is refused as a whole. -/

set_option autoImplicit false

namespace AlarmBridge.Json

variable {α β : Type}

theorem exists_of_forall₂ {R : α → β → Prop} {as : List α} {bs : List β}
    (h : List.Forall₂ R as bs) :
    ∀ a ∈ as, ∃ b, R a b :=
  ((List.forall₂_and_left as bs).mp (h.imp fun a b hab => ⟨(⟨b, hab⟩ : ∃ b, R a b), hab⟩)).1

theorem Refuses.not_takes {r : Reader α} {v : Tree} (h : Refuses r v) (hv : v.HasText) (a : α) :
    ¬Takes r v a := by
  intro htakes
  obtain ⟨s, t, htext⟩ := hv
  exact h s s t _ (.none s) htext (htakes s s t (.none s) htext)

/-- Texts of a tree that is refused do not decode. -/
theorem Refuses.exists_fault {r : Reader α} {v : Tree} (h : Refuses r v) {s : List Char}
    (hs : v.TextOf s) : ∃ fault, decode r s = .error fault := by
  obtain ⟨t, u, hbefore, htext, -⟩ := hs
  cases hdecode : decode r s with
  | error fault => exact ⟨fault, rfl⟩
  | ok a =>
    obtain ⟨w, hrun⟩ := exists_run_of_decode hdecode
    exact absurd hrun (h s t u _ hbefore htext)

/-- A list is refused with any of its items. -/
theorem Refuses.list {item : Reader α} {v : Tree} (h : Refuses item v) (hitem : Settles item)
    {vs : List Tree} (hv : v ∈ vs) : Refuses (Reader.list item) (.list vs) := by
  intro s t u p hs htext hrun
  obtain ⟨as, has⟩ := exists_items_of_run_list hitem hs htext hrun
  obtain ⟨a, htakes⟩ := exists_of_forall₂ has v hv
  exact h.not_takes (Tree.HasText.items ⟨t, u, htext⟩ v hv) a htakes

namespace Shape

variable {shape : Shape α}

/-- What may be said of the value of the field of a name. -/
abbrev Marks := String → Tree → Prop

/-- A field of the record is given a marked value: by a member with its name, or in its place in a
list. -/
inductive GivesMarked (shape : Shape α) (marks : Marks) : Tree → Prop
  | member {ms : List (List Char × Tree)} {m : List Char × Tree} {name : String} (hm : m ∈ ms)
      (hname : Spells m.1 name.toList) (hmarked : marks name m.2) :
      GivesMarked shape marks (.object ms)
  | item {vs : List Tree} {f : Field α} {v : Tree} (hv : (f, v) ∈ shape.fields.zip vs)
      (hmarked : marks f.name v) : GivesMarked shape marks (.list vs)

/-- The fields refuse the values that are marked. -/
def RefusesMarked (shape : Shape α) (marks : Marks) : Prop :=
  ∀ name v, marks name v → ∃ f ∈ shape.fields, f.name = name ∧ Refuses f.read v

theorem Fills.exists_takes {fs : List (Field α)} {vs : List Tree} {changes : List (α → α)}
    (h : Fills fs vs changes) {f : Field α} {v : Tree} (hv : (f, v) ∈ fs.zip vs) :
    ∃ change, Takes f.read v change := by
  induction h with
  | rest => simp at hv
  | item hfirst _ ih =>
    rcases List.mem_cons.mp hv with hsame | hv
    · cases hsame
      exact ⟨_, hfirst⟩
    · exact ih hv

/-- With the value of one field the record is refused. -/
theorem Lawful.refuses_marked (hshape : shape.Lawful) {marks : Marks}
    (hmarks : shape.RefusesMarked marks) {v : Tree} (h : shape.GivesMarked marks v) :
    Refuses shape.read v := by
  intro s t u p hs hv hrun
  have htext : v.HasText := ⟨t, u, hv⟩
  cases h with
  | @member ms m name hm hname hmarked =>
    obtain ⟨f, hf, rfl, hrefuses⟩ := hmarks _ _ hmarked
    obtain ⟨effects, heffects⟩ :=
      exists_effects_of_run_read hshape.named hshape.settled hs hv hrun
    obtain ⟨effect, heffect⟩ := exists_of_forall₂ heffects.each m hm
    cases heffect with
    | nothing hk hnone =>
      obtain rfl := hname.unique fun s => hk _ s rfl
      rw [field?_eq_some hshape.named hf] at hnone
      cases hnone
    | change hf' hk htakes =>
      have hsame := String.toList_inj.mp (hname.unique fun s => hk _ s rfl)
      obtain rfl := List.inj_on_of_nodup_map hshape.named hf hf' hsame
      exact hrefuses.not_takes (htext.members _ hm) _ htakes
  | @item vs f v hpair hmarked =>
    obtain ⟨f', hf', hsame, hrefuses⟩ := hmarks _ _ hmarked
    obtain ⟨hf, hitem⟩ := List.of_mem_zip hpair
    obtain rfl := List.inj_on_of_nodup_map hshape.named hf hf' hsame.symm
    obtain ⟨changes, hfills⟩ := exists_fills_of_run_read hshape.settled hs hv hrun
    obtain ⟨change, htakes⟩ := hfills.exists_takes hpair
    exact hrefuses.not_takes (htext.items v hitem) change htakes

/-- Items of a list some of which are edited, as values of the fields in order. -/
inductive EditedItems (edits : Edits α) :
    List (Field α) → List Tree → List Tree → (α → α) → Prop
  | rest (fs : List (Field α)) : EditedItems edits fs [] [] id
  | keep (f : Field α) (v : Tree) {fs : List (Field α)} {vs vs' : List Tree} {g : α → α}
      (h : EditedItems edits fs vs vs' g) : EditedItems edits (f :: fs) (v :: vs) (v :: vs') g
  | edit {f : Field α} {v v' : Tree} {e : α → α} {fs : List (Field α)} {vs vs' : List Tree}
      {g : α → α} (hv : edits f.name v v' e) (h : EditedItems edits fs vs vs' g) :
      EditedItems edits (f :: fs) (v :: vs) (v' :: vs') (g ∘ e)

/-- A record, as an object or a list, with the values of some fields edited and all else as it
was. -/
inductive Replaced (shape : Shape α) (edits : Edits α) : Tree → Tree → (α → α) → Prop
  | object {ms ms' : List (List Char × Tree)} {g : α → α} (h : Edited edits ms ms' g) :
      Replaced shape edits (.object ms) (.object ms') g
  | list {vs vs' : List Tree} {g : α → α} (h : EditedItems edits shape.fields vs vs' g) :
      Replaced shape edits (.list vs) (.list vs') g

theorem Fills.foldl_comm {fs : List (Field α)} {vs : List Tree} {changes : List (α → α)}
    (h : Fills fs vs changes) (htext : ∀ v ∈ vs, v.HasText) {g : α → α} (hg : ∀ f ∈ fs, f.Unmoved g)
    (r : α) : changes.foldl (fun r change => change r) (g r) =
      g (changes.foldl (fun r change => change r) r) := by
  induction h generalizing r with
  | rest => rfl
  | @item f fs v vs change changes hv _ ih =>
    obtain ⟨hvalue, htext⟩ := List.forall_mem_cons.mp htext
    obtain ⟨hfirst, hg⟩ := List.forall_mem_cons.mp hg
    rw [List.foldl_cons, List.foldl_cons, hfirst change (hv.exists_run hvalue)]
    exact ih htext hg (change r)

/-- Edited items change the record as the items did, but for the edits. -/
theorem exists_edited_fills (hshape : shape.Lawful) {edits : Edits α}
    (hfollows : shape.Follows edits) {fs : List (Field α)} (hfs : fs ⊆ shape.fields)
    (honce : (fs.map (·.name)).Nodup) {vs vs' : List Tree} {g : α → α}
    (h : EditedItems edits fs vs vs' g) {changes : List (α → α)} (hfills : Fills fs vs changes)
    (htext : ∀ v ∈ vs, v.HasText) (htext' : ∀ v ∈ vs', v.HasText) :
    ∃ changes', Fills fs vs' changes' ∧ ∀ r, changes'.foldl (fun r change => change r) r =
      g (changes.foldl (fun r change => change r) r) := by
  induction h generalizing changes with
  | rest fs => exact ⟨changes, hfills, fun _ => rfl⟩
  | keep f v h ih =>
    obtain ⟨-, hfs⟩ := List.cons_subset.mp hfs
    obtain ⟨-, htext⟩ := List.forall_mem_cons.mp htext
    obtain ⟨-, htext'⟩ := List.forall_mem_cons.mp htext'
    cases hfills with
    | @item _ _ _ _ change _ hv hfills =>
      obtain ⟨changes', hfills', hafter⟩ := ih hfs (List.Nodup.of_cons honce) hfills htext htext'
      exact ⟨change :: changes', .item hv hfills', fun r => hafter (change r)⟩
  | @edit f v v' e fs vs vs' g hv h ih =>
    obtain ⟨hf, hrest⟩ := List.cons_subset.mp hfs
    obtain ⟨hvalue, htext⟩ := List.forall_mem_cons.mp htext
    obtain ⟨hvalue', htext'⟩ := List.forall_mem_cons.mp htext'
    obtain ⟨hnew, hnames⟩ := List.nodup_cons.mp honce
    obtain ⟨f', hf', hsame, hreads⟩ := hfollows _ _ _ _ hv hvalue hvalue'
    obtain rfl := List.inj_on_of_nodup_map hshape.named hf hf' hsame.symm
    cases hfills with
    | @item _ _ _ _ change changes hchange hfills =>
      have hchange' := hreads change hchange
      -- the fields to come have other names, so that what this one gives passes all that they
      -- change
      have hpass : ∀ c, f.Gives c → ∀ r, changes.foldl (fun r change => change r) (c r) =
          c (changes.foldl (fun r change => change r) r) := fun c hc =>
        hfills.foldl_comm htext fun d hd => hshape.within hf hc d (hrest hd) fun hname =>
          hnew (List.mem_map.mpr ⟨d, hd, hname⟩)
      obtain ⟨changes', hfills', hafter⟩ := ih hrest hnames hfills htext htext'
      refine ⟨(e ∘ change) :: changes', .item hchange' hfills', fun r => ?_⟩
      calc changes'.foldl (fun r change => change r) (e (change r))
          = g (changes.foldl (fun r change => change r) (e (change r))) := hafter _
        _ = g (e (changes.foldl (fun r change => change r) (change r))) := congrArg g <|
          Field.edit_comm (changes.foldl fun r change => change r) hpass (hchange.exists_run hvalue)
            (hchange'.exists_run hvalue') r

/-- A record is read after values are replaced, with the edits made to it. -/
theorem Lawful.tracks_replaced (hshape : shape.Lawful) {edits : Edits α}
    (hfollows : shape.Follows edits) :
    Tracks shape.read (shape.Replaced edits) := by
  intro v v' g a h htext htext' hv
  cases h with
  | object h =>
    have hevolves : shape.Evolves edits _ _ g :=
      .object h (by simp) (.of_eq (List.append_nil _).symm)
    exact hshape.tracks hfollows _ _ g a hevolves htext htext' hv
  | @list vs vs' _ h =>
    obtain ⟨changes, hfills⟩ : ∃ changes, Fills shape.fields vs changes := by
      obtain ⟨s, t, hs⟩ := htext
      exact exists_fills_of_run_read hshape.settled (.none s) hs (hv s s t (.none s) hs)
    obtain rfl := (takes_fields hfills).unique hv htext
    obtain ⟨changes', hfills', hafter⟩ := exists_edited_fills hshape hfollows (List.Subset.refl _)
      hshape.named h hfills htext.items htext'.items
    rw [← hafter]
    exact takes_fields hfills'

/-- The edits that leave no marked value. -/
def Edits.unmarked (edits : Edits α) (marks : Marks) : Edits α :=
  fun name v v' g => edits name v v' g ∧ ¬marks name v'

theorem Edited.unmarked {edits : Edits α} {marks : Marks} {ms ms' : List (List Char × Tree)}
    {g : α → α} (h : Edited edits ms ms' g)
    (hnone : ∀ m ∈ ms', ∀ name : String, Spells m.1 name.toList → ¬marks name m.2) :
    Edited (edits.unmarked marks) ms ms' g := by
  induction h with
  | nil => exact .nil
  | keep m _ ih => exact .keep m (ih (List.forall_mem_cons.mp hnone).2)
  | edit hk hv _ ih =>
    obtain ⟨hfirst, hnone⟩ := List.forall_mem_cons.mp hnone
    exact .edit hk ⟨hv, hfirst _ hk⟩ (ih hnone)

theorem EditedItems.unmarked {edits : Edits α} {marks : Marks} {fs : List (Field α)}
    {vs vs' : List Tree} {g : α → α} (h : EditedItems edits fs vs vs' g)
    (hnone : ∀ p ∈ fs.zip vs', ¬marks p.1.name p.2) :
    EditedItems (edits.unmarked marks) fs vs vs' g := by
  induction h with
  | rest fs => exact .rest fs
  | keep f v _ ih => exact .keep f v (ih (List.forall_mem_cons.mp hnone).2)
  | edit hv _ ih =>
    obtain ⟨hfirst, hnone⟩ := List.forall_mem_cons.mp hnone
    exact .edit ⟨hv, hfirst⟩ (ih hnone)

theorem Replaced.unmarked {edits : Edits α} {marks : Marks} {v v' : Tree} {g : α → α}
    (h : shape.Replaced edits v v' g) (hv : ¬shape.GivesMarked marks v') :
    shape.Replaced (edits.unmarked marks) v v' g := by
  cases h with
  | object h =>
    exact .object (h.unmarked fun m hm name hname hmarked => hv (.member hm hname hmarked))
  | list h => exact .list (h.unmarked fun p hp hmarked => hv (.item hp hmarked))

/-- Where edits may leave values that fields refuse, a record is read as it is after them as long as
none of these is left. -/
theorem Lawful.tracks_unmarked (hshape : shape.Lawful) {edits : Edits α} {marks : Marks}
    (hfollows : shape.Follows (edits.unmarked marks)) :
    Tracks shape.read fun v v' g => shape.Replaced edits v v' g ∧ ¬shape.GivesMarked marks v' :=
  fun v v' g a h => hshape.tracks_replaced hfollows v v' g a (h.1.unmarked h.2)

end Shape

theorem EachEvolves.and {evolves : Tree → Tree → (α → α) → Prop} {vs vs' : List Tree}
    {gs : List (α → α)} (h : EachEvolves evolves vs vs' gs) {P : Tree → Prop}
    (hP : ∀ v ∈ vs', P v) :
    EachEvolves (fun v v' g => evolves v v' g ∧ P v') vs vs' gs := by
  induction h with
  | nil => exact .nil
  | cons hv _ ih =>
    obtain ⟨hfirst, hP⟩ := List.forall_mem_cons.mp hP
    exact .cons ⟨hv, hfirst⟩ (ih hP)

namespace Shape

variable {item : Shape β} {edits : Edits β} {marks : Marks} {vs vs' : List Tree} {name : String}
  {presence : Presence} {put : List β → α → α}

/-- A field of records refuses them with any that is given a marked value. -/
theorem Lawful.refuses_items (hitem : item.Lawful) (hmarks : item.RefusesMarked marks) {v : Tree}
    (hv : v ∈ vs) (h : item.GivesMarked marks v) :
    Refuses (Field.of name presence (Reader.list item.read) put).read (.list vs) := by
  have hrefuses := hitem.refuses_marked hmarks h
  exact (hrefuses.list hitem.settles_read hv).map put

/-- A field of records is given them as edited, as long as none is given a marked value. -/
theorem Lawful.takes_items (hitem : item.Lawful) (hfollows : item.Follows (edits.unmarked marks))
    {gs : List (β → β)} (h : EachEvolves (item.Replaced edits) vs vs' gs)
    (hnone : ∀ v ∈ vs', ¬item.GivesMarked marks v) (hv : (Tree.list vs).HasText)
    (hv' : (Tree.list vs').HasText) {change : α → α}
    (hchange : Takes (Field.of name presence (Reader.list item.read) put).read (.list vs) change)
    {g : α → α} (hput : ∀ l r, g (put l r) = put (eachAfter gs l) r) :
    Takes (Field.of name presence (Reader.list item.read) put).read (.list vs') (g ∘ change) :=
  takes_edited_items hitem.settles_read (hitem.tracks_unmarked hfollows) (h.and hnone) hv hv'
    hchange hput

end Shape

end AlarmBridge.Json
