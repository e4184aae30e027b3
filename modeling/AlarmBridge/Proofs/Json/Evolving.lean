import AlarmBridge.Proofs.Json.Objects
import Mathlib.Data.List.Pairwise
import Mathlib.Data.List.Perm.Basic

/-! Records that evolve.  The members of an object may be put in another order, members with names
that no field has may be added, and the values of fields may be edited.  A record that is read
before is read after, with the edits made to it and nothing else. -/

set_option autoImplicit false

namespace AlarmBridge.Json

variable {α β : Type}

/-- A change that the field makes to a record for some value. -/
def Field.Gives (f : Field α) (change : α → α) : Prop := ∃ s t, f.read.run s = .ok (change, t)

/-- What one field gives a record does not depend on what the other gives it. -/
def Field.Apart (f g : Field α) : Prop :=
  ∀ change change', f.Gives change → g.Gives change' → ∀ r, change (change' r) = change' (change r)

theorem Field.exists_of_gives {name : String} {presence : Presence} {read : Reader β}
    {put : β → α → α} {change : α → α} (h : (Field.of name presence read put).Gives change) :
    ∃ b, change = put b := by
  obtain ⟨s, t, hrun⟩ := h
  obtain ⟨b, -, rfl⟩ := Reader.exists_of_run_map hrun
  exact ⟨b, rfl⟩

instance : Std.Symm (Field.Apart (α := α)) where
  symm _ _ h change change' hchange hchange' r := (h change' change hchange' hchange r).symm

theorem Field.apart_of {γ : Type} {name name' : String} {presence presence' : Presence}
    {read : Reader β} {read' : Reader γ} {put : β → α → α} {put' : γ → α → α}
    (h : ∀ b c r, put b (put' c r) = put' c (put b r)) :
    (Field.of name presence read put).Apart (.of name' presence' read' put') := by
  intro change change' hchange hchange' r
  obtain ⟨b, rfl⟩ := exists_of_gives hchange
  obtain ⟨c, rfl⟩ := exists_of_gives hchange'
  exact h b c r

/-- What the field gives a record does not depend on what `g` does to it. -/
def Field.Unmoved (f : Field α) (g : α → α) : Prop :=
  ∀ change, f.Gives change → ∀ r, change (g r) = g (change r)

/-- What passes all that the field gives passes an edit of it. -/
theorem Field.edit_comm {f : Field α} (others : α → α)
    (h : ∀ change, f.Gives change → ∀ r, others (change r) = change (others r)) {change e : α → α}
    (hchange : f.Gives change) (hedited : f.Gives (e ∘ change)) (r : α) :
    others (e (change r)) = e (others (change r)) :=
  calc others (e (change r)) = e (change (others r)) := h (e ∘ change) hedited r
    _ = e (others (change r)) := congrArg e (h change hchange r).symm

/-- Some text is one of the tree. -/
def Tree.HasText (v : Tree) : Prop := ∃ s t, TreeText s v t

theorem TakesBy.exists_run {r : Reader α} {v : Tree} {a : α} (h : Takes r v a) (hv : v.HasText) :
    ∃ s t, r.run s = .ok (a, t) := by
  obtain ⟨s, t, htext⟩ := hv
  exact ⟨s, t, h s s t (.none s) htext⟩

theorem TakesBy.unique {r : Reader α} {v : Tree} {a b : α} (ha : Takes r v a) (hb : Takes r v b)
    (hv : v.HasText) : a = b := by
  obtain ⟨s, t, htext⟩ := hv
  have hrun := (ha s s t (.none s) htext).symm.trans (hb s s t (.none s) htext)
  exact (Prod.mk.inj (Except.ok.inj hrun)).1

/-- What a reader with a map over it takes, the reader takes. -/
theorem TakesBy.exists_of_map {r : Reader α} (hr : Settles r) {f : α → β} {v : Tree} {b : β}
    (h : Takes (f <$> r) v b) (hv : v.HasText) : ∃ a, Takes r v a ∧ f a = b := by
  rcases hr v with ⟨a, ha⟩ | hrefuses
  · exact ⟨a, ha, (ha.map f).unique h hv⟩
  · obtain ⟨s, t, htext⟩ := hv
    obtain ⟨a, hread, -⟩ := Reader.exists_of_run_map (h s s t (.none s) htext)
    exact absurd hread (hrefuses s s t _ (.none s) htext)

theorem Membered.hasText {first : Bool} {s t : List Char} {ms : List (List Char × Tree)}
    (h : Membered Quoted TreeText first s ms t) : ∀ m ∈ ms, m.2.HasText := by
  induction h with
  | close => simp
  | member _ _ _ _ hv _ ih => exact List.forall_mem_cons.mpr ⟨⟨_, _, hv⟩, ih⟩

theorem Listed.hasText {first : Bool} {s t : List Char} {vs : List Tree}
    (h : Listed TreeText first s vs t) : ∀ v ∈ vs, v.HasText := by
  induction h with
  | close => simp
  | item _ hv _ ih => exact List.forall_mem_cons.mpr ⟨⟨_, _, hv⟩, ih⟩

theorem Tree.HasText.members {ms : List (List Char × Tree)} (h : (Tree.object ms).HasText) :
    ∀ m ∈ ms, m.2.HasText := by
  obtain ⟨s, t, htext⟩ := h
  cases htext with
  | object _ h => exact h.hasText

theorem Tree.HasText.items {vs : List Tree} (h : (Tree.list vs).HasText) : ∀ v ∈ vs, v.HasText := by
  obtain ⟨s, t, htext⟩ := h
  cases htext with
  | list h => exact h.hasText

theorem Spells.unique {d x y : List Char} (hx : Spells d x) (hy : Spells d y) : x = y := by
  have hrun := (Reader.run_stringBody (hx [])).symm.trans (Reader.run_stringBody (hy []))
  exact (Prod.mk.inj (Except.ok.inj hrun)).1

/-- Of a tree that has evolved the reader takes what it took of the tree, changed in the way that
goes with it. -/
def Tracks (r : Reader α) (evolves : Tree → Tree → (α → α) → Prop) : Prop :=
  ∀ v v' g a, evolves v v' g → v.HasText → v'.HasText → Takes r v a → Takes r v' (g a)

/-- A reader that decodes a text decodes every text of the tree after it has evolved. -/
theorem Tracks.decode_eq {r : Reader α} {evolves : Tree → Tree → (α → α) → Prop}
    (h : Tracks r evolves) (hr : Settles r) {v v' : Tree} {g : α → α} (hv : evolves v v' g)
    {s s' : List Char} (hs : v.TextOf s) (hs' : v'.TextOf s') {a : α}
    (hdecode : decode r s = .ok a) :
    decode r s' = .ok (g a) := by
  obtain ⟨t, u, hbefore, htext, -⟩ := hs
  obtain ⟨t', u', hbefore', htext', hafter'⟩ := hs'
  obtain ⟨w, hrun⟩ := exists_run_of_decode hdecode
  have htakes : Takes r v a := (hr.taken hbefore htext hrun).2
  exact (h v v' g a hv ⟨t, u, htext⟩ ⟨t', u', htext'⟩ htakes).decode_eq hbefore' htext' hafter'

namespace Shape

variable {shape : Shape α}

/-- What `g` does to a record has nothing to do with the fields of other names. -/
def Within (shape : Shape α) (name : String) (g : α → α) : Prop :=
  ∀ f ∈ shape.fields, f.name ≠ name → f.Unmoved g

/-- The fields of a record have names of their own and parts of the record for themselves, and each
is settled by its value. -/
structure Lawful (shape : Shape α) : Prop where
  named : shape.Named
  apart : shape.fields.Pairwise Field.Apart
  settled : ∀ f ∈ shape.fields, Settles f.read

theorem Lawful.settles_read (h : shape.Lawful) : Settles shape.read := settles h.named h.settled

theorem Lawful.within (h : shape.Lawful) {f : Field α} (hf : f ∈ shape.fields) {change : α → α}
    (hchange : f.Gives change) : shape.Within f.name change := by
  intro g hg hne change' hchange' r
  have hapart : g.Apart f := h.apart.forall hg hf fun hsame => hne (congrArg Field.name hsame)
  exact hapart change' change hchange' hchange r

/-- The edits that may be made to the values of members: to the member of this name from one value
to another, which changes the record read in this way. -/
abbrev Edits (α : Type) := String → Tree → Tree → (α → α) → Prop

/-- Members some of which are edited, and what that does to the record. -/
inductive Edited (edits : Edits α) :
    List (List Char × Tree) → List (List Char × Tree) → (α → α) → Prop
  | nil : Edited edits [] [] id
  | keep (m : List Char × Tree) {ms ms' : List (List Char × Tree)} {g : α → α}
      (h : Edited edits ms ms' g) : Edited edits (m :: ms) (m :: ms') g
  | edit {k : List Char} {name : String} {v v' : Tree} {f : α → α}
      {ms ms' : List (List Char × Tree)} {g : α → α} (hk : Spells k name.toList)
      (hv : edits name v v' f) (h : Edited edits ms ms' g) :
      Edited edits ((k, v) :: ms) ((k, v') :: ms') (g ∘ f)

/-- An object that has evolved: some members are edited, members with names that no field of the
record has are added, and all stand in any order. -/
inductive Evolves (shape : Shape α) (edits : Edits α) : Tree → Tree → (α → α) → Prop
  | object {ms edited added ms' : List (List Char × Tree)} {g : α → α}
      (h : Edited edits ms edited g)
      (hadded : ∀ m ∈ added, ∃ name : String, Spells m.1 name.toList ∧
        name ∉ shape.fields.map (·.name))
      (hperm : ms'.Perm (edited ++ added)) : Evolves shape edits (.object ms) (.object ms') g

/-- The edits are of fields, whose readers see them as they are said to change the record. -/
def Follows (shape : Shape α) (edits : Edits α) : Prop :=
  ∀ name v v' g, edits name v v' g → v.HasText → v'.HasText →
    ∃ f ∈ shape.fields, f.name = name ∧
      ∀ change, Takes f.read v change → Takes f.read v' (g ∘ change)

/-- An edit of a field changes the record as it changes the value of the field. -/
theorem takes_edited {name : String} {presence : Presence} {read : Reader β} {put : β → α → α}
    {v v' : Tree} {change : α → α} (hchange : Takes (Field.of name presence read put).read v change)
    (hread : Settles read) (hv : v.HasText) {k : β → β}
    (htakes : ∀ b, Takes read v b → Takes read v' (k b)) {g : α → α}
    (hput : ∀ b r, g (put b r) = put (k b) r) :
    Takes (Field.of name presence read put).read v' (g ∘ change) := by
  obtain ⟨b, hb, rfl⟩ := TakesBy.exists_of_map hread hchange hv
  have hsame : g ∘ put b = put (k b) := funext (hput b)
  rw [hsame]
  exact (htakes b hb).map put

/-- Each change is one that the field of its name gives. -/
def Given (shape : Shape α) (changes : List (String × (α → α))) : Prop :=
  ∀ e ∈ changes, ∃ f ∈ shape.fields, f.name = e.1 ∧ f.Gives e.2

theorem given_of_each {ms : List (List Char × Tree)} {effects : List (Option (String × (α → α)))}
    (h : List.Forall₂ (shape.HasEffect Quoted TreeText) ms effects)
    (htext : ∀ m ∈ ms, m.2.HasText) :
    shape.Given effects.reduceOption := by
  induction h with
  | nil => simp [Given]
  | cons hm _ ih =>
    obtain ⟨hvalue, hrest⟩ := List.forall_mem_cons.mp htext
    cases hm with
    | nothing => exact ih hrest
    | change hf _ hv =>
      rw [List.reduceOption_cons_of_some]
      exact List.forall_mem_cons.mpr ⟨⟨_, hf, rfl, hv.exists_run hvalue⟩, ih hrest⟩

/-- What has to do with one field only may as well come after changes of others. -/
theorem foldl_comm {name : String} {g : α → α} (hg : shape.Within name g)
    {changes : List (String × (α → α))} (hgiven : shape.Given changes)
    (hother : ∀ e ∈ changes, e.1 ≠ name) (r : α) :
    changes.foldl (fun r e => e.2 r) (g r) = g (changes.foldl (fun r e => e.2 r) r) := by
  induction changes generalizing r with
  | nil => rfl
  | cons e changes ih =>
    obtain ⟨⟨f, hf, hname, hgives⟩, hgiven⟩ := List.forall_mem_cons.mp hgiven
    obtain ⟨hne, hother⟩ := List.forall_mem_cons.mp hother
    rw [List.foldl_cons, List.foldl_cons, hg f hf (hname ▸ hne) e.2 hgives]
    exact ih hgiven hother (e.2 r)

/-- The order of changes that different fields give does not matter. -/
theorem foldl_perm (hshape : shape.Lawful) {changes changes' : List (String × (α → α))}
    (hgiven : shape.Given changes) (honce : (changes.map (·.1)).Nodup)
    (hperm : changes.Perm changes') (r : α) :
    changes.foldl (fun r e => e.2 r) r = changes'.foldl (fun r e => e.2 r) r := by
  refine hperm.foldl_eq' (fun d hd e he r => ?_) r
  by_cases hsame : d.1 = e.1
  · rw [List.inj_on_of_nodup_map honce hd he hsame]
  · obtain ⟨f, hf, hname, hgives⟩ := hgiven d hd
    obtain ⟨f', hf', hname', hgives'⟩ := hgiven e he
    have hne : f'.name ≠ f.name := by
      rw [hname, hname']
      exact fun h => hsame h.symm
    exact hshape.within hf hgives f' hf' hne e.2 hgives' r

/-- Edited members have the effects that the members had, but for the edits. -/
theorem exists_edited_effects (hshape : shape.Lawful) {edits : Edits α}
    (hfollows : shape.Follows edits) {ms ms' : List (List Char × Tree)} {g : α → α}
    (h : Edited edits ms ms' g) {effects : List (Option (String × (α → α)))}
    (heach : List.Forall₂ (shape.HasEffect Quoted TreeText) ms effects)
    (honce : (effects.reduceOption.map (·.1)).Nodup) (htext : ∀ m ∈ ms, m.2.HasText)
    (htext' : ∀ m ∈ ms', m.2.HasText) :
    ∃ effects', List.Forall₂ (shape.HasEffect Quoted TreeText) ms' effects' ∧
      effects'.reduceOption.map (·.1) = effects.reduceOption.map (·.1) ∧
      ∀ r, after r effects' = g (after r effects) := by
  induction h generalizing effects with
  | nil =>
    cases heach
    exact ⟨[], .nil, rfl, fun _ => rfl⟩
  | keep m h ih =>
    obtain ⟨-, hrest⟩ := List.forall_mem_cons.mp htext
    obtain ⟨-, hrest'⟩ := List.forall_mem_cons.mp htext'
    cases heach with
    | cons hm heach =>
      cases hm with
      | nothing hk hname hv =>
        obtain ⟨effects', heach', hsame, hafter⟩ := ih heach honce hrest hrest'
        exact ⟨none :: effects', .cons (.nothing hk hname hv) heach', hsame, hafter⟩
      | @change _ _ f change hf hk hv =>
        rw [List.reduceOption_cons_of_some, List.map_cons] at honce ⊢
        obtain ⟨effects', heach', hsame, hafter⟩ := ih heach honce.of_cons hrest hrest'
        refine ⟨some (f.name, change) :: effects', .cons (.change hf hk hv) heach', ?_, fun r => ?_⟩
        · rw [List.reduceOption_cons_of_some, List.map_cons, hsame]
        · exact hafter (change r)
  | @edit k name v v' e ms ms' g hk hv h ih =>
    obtain ⟨hvalue, hrest⟩ := List.forall_mem_cons.mp htext
    obtain ⟨hvalue', hrest'⟩ := List.forall_mem_cons.mp htext'
    obtain ⟨f, hf, rfl, hreads⟩ := hfollows _ _ _ _ hv hvalue hvalue'
    cases heach with
    | @cons _ _ _ effects hm heach =>
      cases hm with
      | nothing hk' hname =>
        obtain rfl := hk.unique fun s => hk' _ s rfl
        rw [field?_eq_some hshape.named hf] at hname
        cases hname
      | @change _ _ f' change hf' hk' htakes =>
        have hsame : f.name = f'.name := String.toList_inj.mp (hk.unique fun s => hk' _ s rfl)
        obtain rfl : f = f' := List.inj_on_of_nodup_map hshape.named hf hf' hsame
        rw [List.reduceOption_cons_of_some, List.map_cons] at honce ⊢
        -- no later member gives this field again, so that what it gives passes all changes that
        -- follow
        obtain ⟨hnew, honce⟩ := List.nodup_cons.mp honce
        have hother : ∀ d ∈ effects.reduceOption, d.1 ≠ f.name := by
          rintro d hd hsame
          exact hnew (List.mem_map.mpr ⟨d, hd, hsame⟩)
        have hpass : ∀ c, f.Gives c → ∀ r, after (c r) effects = c (after r effects) := fun c hc =>
          foldl_comm (hshape.within hf hc) (given_of_each heach hrest) hother
        have htakes' := hreads change htakes
        obtain ⟨effects', heach', hnames, hafter⟩ := ih heach honce hrest hrest'
        refine ⟨some (f.name, e ∘ change) :: effects', .cons (.change hf hk' htakes') heach', ?_,
          fun r => ?_⟩
        · rw [List.reduceOption_cons_of_some, List.map_cons, hnames]
        · calc after (e (change r)) effects'
              = g (after (e (change r)) effects) := hafter _
            _ = g (e (after (change r) effects)) := congrArg g <|
              Field.edit_comm (after · effects) hpass (htakes.exists_run hvalue)
                (htakes'.exists_run hvalue') r

theorem hasEffect_added {ms : List (List Char × Tree)} (h : ∀ m ∈ ms, ∃ name : String,
    Spells m.1 name.toList ∧ name ∉ shape.fields.map (·.name)) :
    List.Forall₂ (shape.HasEffect Quoted TreeText) ms (ms.map fun _ => none) := by
  refine List.forall₂_map_right_iff.mpr (List.forall₂_same.mpr fun m hm => ?_)
  obtain ⟨name, hspells, hother⟩ := h m hm
  have hnone : shape.field? name.toList = none := by
    refine List.find?_eq_none.mpr fun f hf hsame => hother ?_
    exact List.mem_map.mpr ⟨f, hf, String.toList_inj.mp (by simpa using hsame)⟩
  refine .nothing (fun s t ht => ?_) hnone (Reader.takes_skipValue m.2)
  obtain rfl : s = m.1 ++ '"' :: t := ht
  exact hspells t

/-- A record is read after it has evolved, with the edits made to it. -/
theorem Lawful.tracks (hshape : shape.Lawful) {edits : Edits α} (hfollows : shape.Follows edits) :
    Tracks shape.read (shape.Evolves edits) := by
  intro v v' g a h htext htext' hv
  cases h with
  | @object ms edited added ms' _ hedited hadded hperm =>
    have hmembers := htext'.members
    have hsplit : ∀ m ∈ edited ++ added, m.2.HasText :=
      fun m hm => hmembers m (hperm.mem_iff.mpr hm)
    obtain ⟨effects, heffects⟩ : ∃ effects, shape.HaveEffects Quoted TreeText ms effects := by
      obtain ⟨s, t, hs⟩ := htext
      exact exists_effects_of_run_read hshape.named hshape.settled (.none s) hs
        (hv s s t (.none s) hs)
    obtain rfl := (takes_object hshape.named heffects).unique hv htext
    obtain ⟨effects', heach, hsame, hafter⟩ :=
      exists_edited_effects hshape hfollows hedited heffects.each heffects.once
        htext.members fun m hm => hsplit m (List.mem_append_left _ hm)
    -- the effects of what is added are none, and those of all in the new order are as many
    have hall := List.rel_append heach (hasEffect_added hadded)
    have hnothing : (effects' ++ added.map fun _ => none).reduceOption = effects'.reduceOption := by
      rw [List.reduceOption_append, List.map_const', List.reduceOption_replicate_none,
        List.append_nil]
    obtain ⟨effects'', heach'', hperm'⟩ := List.perm_comp_forall₂ hperm hall
    have hchanges : effects''.reduceOption.Perm effects'.reduceOption :=
      hnothing ▸ hperm'.filterMap id
    have hgiven := given_of_each heach'' hmembers
    have honce : (effects''.reduceOption.map (·.1)).Nodup :=
      (hchanges.map _).nodup_iff.mpr (hsame ▸ heffects.once)
    have heffects'' : shape.HaveEffects Quoted TreeText ms' effects'' := by
      refine ⟨heach'', honce, fun f hf hrequired => ?_⟩
      exact (hchanges.map _).mem_iff.mpr (hsame ▸ heffects.required f hf hrequired)
    have hresult : after shape.blank effects'' = g (after shape.blank effects) :=
      (foldl_perm hshape hgiven honce hchanges shape.blank).trans (hafter shape.blank)
    rw [← hresult]
    exact takes_object hshape.named heffects''

end Shape

/-- The items of a list have evolved, each in a way of its own. -/
inductive EachEvolves (evolves : Tree → Tree → (α → α) → Prop) :
    List Tree → List Tree → List (α → α) → Prop
  | nil : EachEvolves evolves [] [] []
  | cons {v v' : Tree} {vs vs' : List Tree} {g : α → α} {gs : List (α → α)} (h : evolves v v' g)
      (hrest : EachEvolves evolves vs vs' gs) : EachEvolves evolves (v :: vs) (v' :: vs') (g :: gs)

/-- Each record as it is after what has become of it. -/
def eachAfter (gs : List (α → α)) (as : List α) : List α := gs.zipWith (fun g a => g a) as

/-- A list is read after its items have evolved. -/
theorem Tracks.list {item : Reader α} {evolves : Tree → Tree → (α → α) → Prop}
    (h : Tracks item evolves) (hitem : Settles item) {vs vs' : List Tree} {gs : List (α → α)}
    (hvs : EachEvolves evolves vs vs' gs) (htext : (Tree.list vs).HasText)
    (htext' : (Tree.list vs').HasText) {as : List α} (hv : Takes (Reader.list item) (.list vs) as) :
    Takes (Reader.list item) (.list vs') (eachAfter gs as) := by
  obtain ⟨bs, hbs⟩ : ∃ bs, List.Forall₂ (Takes item) vs bs := by
    obtain ⟨s, t, hs⟩ := htext
    exact exists_items_of_run_list hitem (.none s) hs (hv s s t (.none s) hs)
  obtain rfl := (takes_list hbs).unique hv htext
  have hitems := htext.items
  have hitems' := htext'.items
  refine takes_list ?_
  clear hv htext htext'
  induction hvs generalizing bs with
  | nil =>
    cases hbs
    exact .nil
  | cons hv _ ih =>
    obtain ⟨hfirst, hitems⟩ := List.forall_mem_cons.mp hitems
    obtain ⟨hfirst', hitems'⟩ := List.forall_mem_cons.mp hitems'
    cases hbs with
    | cons hb hbs => exact .cons (h _ _ _ _ hv hfirst hfirst' hb) (ih _ hbs hitems hitems')

/-- A field of records is given them as they are after what has become of them. -/
theorem Shape.takes_edited_items {item : Reader β} (hitem : Settles item)
    {evolves : Tree → Tree → (β → β) → Prop} (htracks : Tracks item evolves) {vs vs' : List Tree}
    {gs : List (β → β)} (h : EachEvolves evolves vs vs' gs) (hv : (Tree.list vs).HasText)
    (hv' : (Tree.list vs').HasText) {name : String} {presence : Presence} {put : List β → α → α}
    {change : α → α}
    (hchange : Takes (Field.of name presence (Reader.list item) put).read (.list vs) change)
    {g : α → α} (hput : ∀ l r, g (put l r) = put (eachAfter gs l) r) :
    Takes (Field.of name presence (Reader.list item) put).read (.list vs') (g ∘ change) :=
  takes_edited hchange hitem.list hv (fun _ => htracks.list hitem h hv hv') hput

/-- A field of records is given them as they are after they have evolved. -/
theorem Shape.takes_edited_list {item : Shape β} (hitem : item.Lawful) {edits : Edits β}
    (hfollows : item.Follows edits) {vs vs' : List Tree} {gs : List (β → β)}
    (h : EachEvolves (item.Evolves edits) vs vs' gs) (hv : (Tree.list vs).HasText)
    (hv' : (Tree.list vs').HasText) {name : String} {presence : Presence} {put : List β → α → α}
    {change : α → α}
    (hchange : Takes (Field.of name presence (Reader.list item.read) put).read (.list vs) change)
    {g : α → α} (hput : ∀ l r, g (put l r) = put (eachAfter gs l) r) :
    Takes (Field.of name presence (Reader.list item.read) put).read (.list vs') (g ∘ change) :=
  takes_edited_items hitem.settles_read (hitem.tracks hfollows) h hv hv' hchange hput

end AlarmBridge.Json
