import AlarmBridge.Proofs.Json.Settling

/-! Records are settled by objects and lists when their fields are by the values of these.  What the
members of an object do to a record are their effects: those of fields change it, and all others are
left out. -/

set_option autoImplicit false

namespace AlarmBridge.Json

variable {α : Type}

namespace Shape

variable {shape : Shape α} {s t : List Char}

/-- When an object is read, each member has an effect, and no field is given twice. -/
theorem exists_of_run_readMembers (hfields : ∀ f ∈ shape.fields, Settles f.read)
    {ms : List (List Char × Tree)} (hspelled : ∀ m ∈ ms, Spelling m.1) {first : Bool}
    (h : Membered Quoted TreeText first s ms t) {fuel : Nat} {met : List String} {r : α}
    {p : (List String × α) × List Char}
    (hrun : (shape.readMembers fuel first met r).run s = .ok p) :
    ∃ effects, List.Forall₂ (shape.HasEffect Quoted TreeText) ms effects ∧
      (effects.reduceOption.map (·.1)).Nodup ∧ ∀ e ∈ effects.reduceOption, e.1 ∉ met := by
  induction ms generalizing s first fuel met r with
  | nil => exact ⟨[], .nil, List.nodup_nil, by simp⟩
  | cons m ms ih =>
    cases fuel with
    | zero => cases hrun
    | succ fuel =>
      cases h with
      | @member _ _ _ _ _ _ _ _ d v _ hbefore hname hcolon hspace hv hrest =>
        have hspelled' : ∀ m ∈ ms, Spelling m.1 :=
          fun m hm => hspelled m (List.mem_cons_of_mem _ hm)
        rw [readMembers, Reader.run_bind (Reader.run_moreMembers hbefore)] at hrun
        simp only [if_true] at hrun
        obtain rfl : _ = _ ++ '"' :: _ := hname
        -- a name may be spelled with codes of no text; this one was read, so that it has one
        obtain ⟨name, hspells⟩ : ∃ name, Spells d name := by
          obtain ⟨_, _, hread, -⟩ := Reader.exists_of_run_bind hrun
          exact Reader.exists_spells_of_run_stringBody (hspelled _ List.mem_cons_self) hread
        rw [Reader.run_bind (Reader.run_stringBody (hspells _))] at hrun
        have hk : ∀ s t, Quoted s d t → StringText s name t := by
          rintro _ t rfl
          exact hspells t
        cases hfield : shape.field? name with
        | none =>
          simp only [hfield] at hrun
          rw [Reader.run_bind (Reader.run_colon hcolon),
            Reader.run_bind (Reader.takes_skipValue v _ _ _ hspace hv)] at hrun
          obtain ⟨effects, heach, honce, hmet⟩ := ih hspelled' hrest hrun
          have heffect := HasEffect.nothing hk hfield (Reader.takes_skipValue v)
          exact ⟨none :: effects, .cons heffect heach, honce, hmet⟩
        | some f =>
          simp only [hfield] at hrun
          obtain rfl : f.name.toList = name := by simpa using List.find?_some hfield
          have hf := List.mem_of_find?_eq_some hfield
          split_ifs at hrun with hfresh
          · cases hrun
          · rw [Reader.run_bind (Reader.run_colon hcolon)] at hrun
            obtain ⟨change, w, hread, hrun⟩ := Reader.exists_of_run_bind hrun
            obtain ⟨rfl, htakes⟩ := (hfields f hf).taken hspace hv hread
            obtain ⟨effects, heach, honce, hmet⟩ := ih hspelled' hrest hrun
            refine ⟨some (f.name, change) :: effects, .cons (.change hf hk htakes) heach, ?_⟩
            rw [List.reduceOption_cons_of_some, List.map_cons, List.nodup_cons,
              List.forall_mem_cons]
            refine ⟨⟨fun hmem => ?_, honce⟩, hfresh, fun e he hmem =>
              hmet e he (List.mem_cons_of_mem _ hmem)⟩
            obtain ⟨e, he, hsame⟩ := List.mem_map.mp hmem
            exact hmet e he (hsame ▸ List.mem_cons_self)

/-- An object that is read has members whose effects make up the record. -/
theorem exists_effects_of_run_read (hnames : shape.Named)
    (hfields : ∀ f ∈ shape.fields, Settles f.read) {ms : List (List Char × Tree)} (hs : Blanks s t)
    {u : List Char} (hv : TreeText t (.object ms) u) {p : α × List Char}
    (hrun : shape.read.run s = .ok p) :
    ∃ effects, shape.HaveEffects Quoted TreeText ms effects := by
  cases hv with
  | @object t _ _ hspelled h =>
    unfold Shape.read at hrun
    rw [Reader.run_expecting hs rfl rfl, Reader.run_bind (Reader.run_skip _ _),
      Reader.run_bind (Reader.run_get _)] at hrun
    obtain ⟨effects, heach, honce, -⟩ : ∃ effects, _ := by
      obtain ⟨_, _, hread, -⟩ := Reader.exists_of_run_bind hrun
      exact exists_of_run_readMembers hfields hspelled h hread
    rw [Reader.run_bind
      (run_readMembers hnames heach h (Nat.lt_succ_of_lt h.fits) honce (by simp) _)] at hrun
    refine ⟨effects, heach, honce, fun f hf hrequired => ?_⟩
    by_contra habsent
    obtain ⟨g, hg⟩ :
        ∃ g, shape.missing? ((effects.reduceOption.map (·.1)).reverse ++ []) = some g :=
      Option.isSome_iff_exists.mp
        (List.find?_isSome.mpr ⟨f, hf, by simpa [hrequired] using habsent⟩)
    simp only [hg] at hrun
    cases hrun

theorem takes_object (hnames : shape.Named) {ms : List (List Char × Tree)}
    {effects : List (Option (String × (α → α)))}
    (heffects : shape.HaveEffects Quoted TreeText ms effects) :
    Takes shape.read (.object ms) (after shape.blank effects) := by
  intro s t u hs hv
  cases hv with
  | object _ h => exact run_read hnames heffects hs h h.fits

/-- The items of a list are the first of some fields, and those left are not needed. -/
inductive Fills : List (Field α) → List Tree → List (α → α) → Prop
  | rest {fs : List (Field α)} (h : fs.all (·.presence = .defaulted) = true) : Fills fs [] []
  | item {f : Field α} {fs : List (Field α)} {v : Tree} {vs : List Tree} {change : α → α}
      {changes : List (α → α)} (hv : Takes f.read v change) (h : Fills fs vs changes) :
      Fills (f :: fs) (v :: vs) (change :: changes)

theorem exists_run_readListed {fs : List (Field α)} {vs : List Tree} {changes : List (α → α)}
    (hfills : Fills fs vs changes) {first : Bool} (h : Listed TreeText first s vs t) (r : α) :
    ∃ w, Blanks w (']' :: t) ∧
      (shape.readListed first r fs).run s =
        .ok (changes.foldl (fun r change => change r) r, w) := by
  induction hfills generalizing s first r with
  | @rest fs hrest =>
    cases h with
    | close h =>
      cases fs with
      | nil => exact ⟨s, h, rfl⟩
      | cons f fs =>
        refine ⟨']' :: t, .none _, ?_⟩
        rw [readListed, Reader.run_bind (Reader.run_moreItems_close h _)]
        simp only [Bool.false_eq_true, if_false, hrest, if_true]
        rfl
  | item hv _ ih =>
    cases h with
    | item hbefore hvalue hitems =>
      obtain ⟨c, u, rfl, hc, hclose⟩ := headed_treeText hvalue
      obtain ⟨w, hw, hrun⟩ := ih hitems (_)
      refine ⟨w, hw, ?_⟩
      rw [readListed, Reader.run_bind (Reader.run_moreItems hbefore hc hclose)]
      simp only [if_true]
      rw [Reader.run_bind (hv _ _ _ (.none _) hvalue), hrun]
      rfl

theorem run_endList_ne {first : Bool} {v : Tree} {vs : List Tree}
    (h : Listed TreeText first s (v :: vs) t) (p : Unit × List Char) :
    Reader.endList.run s ≠ .ok p := by
  -- after the last field a comma is a fault, whatever comes next
  have hcomma : ∀ s, (do
      Reader.skip
      if (← Reader.peekPastSpaces) = some ']' then throw .trailingComma
      else throw .trailingCharacters : Reader Unit).run s ≠ .ok p := by
    intro s hrun
    obtain ⟨_, _, -, hrun⟩ := Reader.exists_of_run_bind hrun
    obtain ⟨_, _, -, hrun⟩ := Reader.exists_of_run_bind hrun
    split_ifs at hrun <;> cases hrun
  intro hrun
  unfold Reader.endList at hrun
  cases h with
  | item hbefore hvalue =>
    obtain ⟨c, u, rfl, hc, hclose⟩ := headed_treeText hvalue
    cases hbefore with
    | first h =>
      rw [Reader.run_bind (Reader.run_peekPastSpaces h hc)] at hrun
      simp only [hclose, if_false] at hrun
      split_ifs at hrun
      · exact hcomma _ hrun
      · cases hrun
    | comma h h' =>
      rw [Reader.run_bind (Reader.run_peekPastSpaces h rfl)] at hrun
      exact hcomma _ hrun

theorem exists_fills_of_run {fs : List (Field α)} (hfs : ∀ f ∈ fs, Settles f.read) {vs : List Tree}
    {first : Bool} (h : Listed TreeText first s vs t) {r x : α} {w : List Char}
    {p : Unit × List Char} (hrun : (shape.readListed first r fs).run s = .ok (x, w))
    (hend : Reader.endList.run w = .ok p) :
    ∃ changes, Fills fs vs changes := by
  induction fs generalizing s first r vs with
  | nil =>
    cases hrun
    cases vs with
    | nil => exact ⟨[], .rest rfl⟩
    | cons v vs => exact absurd hend (run_endList_ne h p)
  | cons f fs ih =>
    cases h with
    | close h =>
      rw [readListed, Reader.run_bind (Reader.run_moreItems_close h _)] at hrun
      simp only [Bool.false_eq_true, if_false] at hrun
      split_ifs at hrun with hrest
      · exact ⟨[], .rest hrest⟩
      · cases hrun
    | item hbefore hvalue hitems =>
      obtain ⟨c, u, rfl, hc, hclose⟩ := headed_treeText hvalue
      rw [readListed, Reader.run_bind (Reader.run_moreItems hbefore hc hclose)] at hrun
      simp only [if_true] at hrun
      obtain ⟨change, y, hread, hrun⟩ := Reader.exists_of_run_bind hrun
      obtain ⟨rfl, htakes⟩ := (hfs f List.mem_cons_self).taken (.none _) hvalue hread
      obtain ⟨changes, hfills⟩ := ih (fun f hf => hfs f (List.mem_cons_of_mem _ hf)) hitems hrun
      exact ⟨change :: changes, .item htakes hfills⟩

theorem takes_fields {vs : List Tree} {changes : List (α → α)}
    (hfills : Fills shape.fields vs changes) :
    Takes shape.read (.list vs) (changes.foldl (fun r change => change r) shape.blank) := by
  intro s t u hs hv
  cases hv with
  | list h =>
    obtain ⟨w, hw, hread⟩ := exists_run_readListed hfills h shape.blank
    unfold Shape.read
    rw [Reader.run_expecting hs rfl rfl, Reader.run_bind (Reader.run_skip _ _),
      Reader.run_bind hread, Reader.run_bind (Reader.run_endList hw)]
    rfl

/-- A list that is read has items that are values of the fields. -/
theorem exists_fills_of_run_read (hfields : ∀ f ∈ shape.fields, Settles f.read) {vs : List Tree}
    (hs : Blanks s t) {u : List Char} (hv : TreeText t (.list vs) u) {p : α × List Char}
    (hrun : shape.read.run s = .ok p) : ∃ changes, Fills shape.fields vs changes := by
  cases hv with
  | list h =>
    unfold Shape.read at hrun
    rw [Reader.run_expecting hs rfl rfl, Reader.run_bind (Reader.run_skip _ _)] at hrun
    obtain ⟨record, w, hread, hrest⟩ := Reader.exists_of_run_bind hrun
    obtain ⟨_, _, hend, -⟩ := Reader.exists_of_run_bind hrest
    exact exists_fills_of_run hfields h hread hend

/-- A record is settled by an object or a list when its fields are by their values. -/
theorem settles (hnames : shape.Named) (hfields : ∀ f ∈ shape.fields, Settles f.read) :
    Settles shape.read := by
  have hother : ∀ v : Tree, ¬v.Starts '[' → ¬v.Starts '\x7b' → Refuses shape.read v :=
    fun v hl ho =>
    refuses_expecting fun c hc => by
      rw [if_neg (Tree.Starts.ne hc hl), if_neg (Tree.Starts.ne hc ho)]
  intro v
  cases v with
  | list vs =>
    by_cases hfills : ∃ changes, Fills shape.fields vs changes
    · obtain ⟨changes, hfills⟩ := hfills
      exact .inl ⟨_, takes_fields hfills⟩
    · exact .inr fun s t u p hs hv hrun => hfills (exists_fills_of_run_read hfields hs hv hrun)
  | object ms =>
    by_cases heffects : ∃ effects, shape.HaveEffects Quoted TreeText ms effects
    · obtain ⟨effects, heffects⟩ := heffects
      exact .inl ⟨after shape.blank effects, takes_object hnames heffects⟩
    · exact .inr fun s t u p hs hv hrun =>
        heffects (exists_effects_of_run_read hnames hfields hs hv hrun)
  | _ => exact .inr (hother _ (by simp [Tree.Starts]) (by simp [Tree.Starts]))

end Shape

end AlarmBridge.Json
