import AlarmBridge.Proofs.Json.Skipping
import AlarmBridge.Proofs.Utf8

/-! A reader settles what becomes of a tree: either it takes every text of the tree, to one result,
or it takes none of them.  So blanks between tokens never matter. -/

set_option autoImplicit false

namespace AlarmBridge.Json

variable {α β : Type}

/-- The reader takes every text of the tree, past any blanks, to this result. -/
abbrev Takes (r : Reader α) (v : Tree) (a : α) : Prop := TakesBy TreeText r v a

/-- The reader takes no text of the tree. -/
def Refuses (r : Reader α) (v : Tree) : Prop :=
  ∀ s t u x, Blanks s t → TreeText t v u → r.run s ≠ .ok x

def Settles (r : Reader α) : Prop := ∀ v, (∃ a, Takes r v a) ∨ Refuses r v

/-- What is decoded from a text has been read from it. -/
theorem exists_run_of_decode {r : Reader α} {s : List Char} {a : α} (h : decode r s = .ok a) :
    ∃ t, r.run s = .ok (a, t) := by
  unfold decode at h
  cases hrun : r.run s with
  | error fault =>
    rw [hrun] at h
    cases h
  | ok p =>
    rw [hrun] at h
    have hresult : (if p.2.all isSpace then pure p.1 else Except.error Fault.trailingCharacters) =
        Except.ok a := h
    split_ifs at hresult
    cases hresult
    exact ⟨p.2, rfl⟩

/-- What is taken from one text of a tree is taken from every text. -/
theorem Settles.taken {r : Reader α} (h : Settles r) {v : Tree} {s t u w : List Char} {a : α}
    (hs : Blanks s t) (hv : TreeText t v u) (hrun : r.run s = .ok (a, w)) :
    w = u ∧ Takes r v a := by
  rcases h v with ⟨b, htakes⟩ | hrefuses
  · obtain ⟨rfl, rfl⟩ := Prod.mk.inj (Except.ok.inj (hrun.symm.trans (htakes s t u hs hv)))
    exact ⟨rfl, htakes⟩
  · exact absurd hrun (hrefuses s t u _ hs hv)

namespace Reader

variable {s t u : List Char}

theorem exists_of_run_bind {x : Reader α} {f : α → Reader β} {p : β × List Char}
    (h : (x >>= f).run s = .ok p) : ∃ a t, x.run s = .ok (a, t) ∧ (f a).run t = .ok p :=
  exists_of_run_bind_ok h

theorem exists_of_run_map {x : Reader α} {f : α → β} {b : β} (h : (f <$> x).run s = .ok (b, t)) :
    ∃ a, x.run s = .ok (a, t) ∧ f a = b := by
  rw [map_eq_pure_bind] at h
  obtain ⟨a, w, hread, hpure⟩ := exists_of_run_bind h
  cases hpure
  exact ⟨a, hread, rfl⟩

theorem run_bind_throw_ne (x : Reader α) (fault : α → Fault) (p : β × List Char) :
    (x >>= fun a => (throw (fault a) : Reader β)).run s ≠ .ok p := by
  intro h
  obtain ⟨a, t, -, hthrow⟩ := exists_of_run_bind h
  cases hthrow

theorem run_mismatch_ne (wanted : Wanted) (p : α × List Char) :
    (mismatch wanted : Reader α).run s ≠ .ok p := by
  unfold mismatch
  rw [run_bind (run_peek s)]
  intro h
  split at h
  · cases h
  · split_ifs at h
    -- each way ends in a fault, most after something has been read
    · exact run_bind_throw_ne _ (fun _ => _) p h
    · exact run_bind_throw_ne _ (fun _ => _) p h
    · exact run_bind_throw_ne _ (fun _ => _) p h
    · exact run_bind_throw_ne _ (fun _ => _) p h
    · obtain ⟨_, _, -, h⟩ := exists_of_run_bind h
      exact run_bind_throw_ne _ (fun _ => _) p h
    · cases h
    · cases h
    · cases h

end Reader

theorem Refuses.map {r : Reader α} {v : Tree} (h : Refuses r v) (f : α → β) :
    Refuses (f <$> r) v := by
  intro s t u x hs hv hrun
  obtain ⟨a, hread, -⟩ := Reader.exists_of_run_map hrun
  exact h s t u _ hs hv hread

theorem Settles.map {r : Reader α} (h : Settles r) (f : α → β) : Settles (f <$> r) := by
  intro v
  rcases h v with ⟨a, htakes⟩ | hrefuses
  · exact .inl ⟨f a, htakes.map f⟩
  · exact .inr (hrefuses.map f)

theorem refuses_expecting {wanted : Wanted} {read : Char → Option (Reader α)} {v : Tree}
    (h : ∀ c, v.Starts c → read c = none) : Refuses (Reader.expecting wanted read) v := by
  intro s t u x hs hv
  obtain ⟨c, w, rfl, hc⟩ := hv.starts
  unfold Reader.expecting
  rw [Reader.run_bind (Reader.run_peekPastSpaces hs (Tree.Starts.head hc).1)]
  simp only [h c hc]
  exact Reader.run_mismatch_ne wanted x

namespace Reader

variable {s t u : List Char}

theorem eq_of_run_demand {c : Char} {fault : Fault} {p : Unit × List Char}
    (h : (demand c fault).run s = .ok p) : s = c :: p.2 := by
  unfold demand at h
  rw [run_bind (run_get s)] at h
  cases s with
  | nil => cases h
  | cons d s =>
    simp only at h
    split_ifs at h with hd
    · rw [hd]
      cases h
      rfl
    · cases h

theorem CodeText.lt {n : Nat} (h : CodeText s n t) : n < 0x10000 := by
  cases h with
  | digits _ ha hb hc hd hn =>
    have hbounds := (⟨ha.1, hb.1, hc.1, hd.1⟩ : _ ∧ _ ∧ _ ∧ _)
    omega

/-- An escape that is read stands for a character, and takes one code or two. -/
theorem charText_of_run_codeEscape {d : List Char} {n : Nat} (hn : CodeText s n d) (hd : Spelling d)
    {p : Char × List Char} (h : codeEscape.run (s ++ '"' :: u) = .ok p) :
    ∃ c d', Spelling d' ∧ d'.length ≤ d.length ∧
      ∀ u, CharText ('\\' :: 'u' :: (s ++ '"' :: u)) c (d' ++ '"' :: u) := by
  unfold codeEscape at h
  rw [run_bind (run_hexCode (hn.append _))] at h
  split_ifs at h with htrailing hleading
  · cases h
  · obtain ⟨_, w, hdemand, hrest⟩ := exists_of_run_bind h
    obtain ⟨_, y, hdemand', hcode⟩ := exists_of_run_bind hrest
    have hslash : d ++ '"' :: u = '\\' :: 'u' :: y :=
      (eq_of_run_demand hdemand).trans (congrArg ('\\' :: ·) (eq_of_run_demand hdemand'))
    clear h hrest hdemand hdemand'
    cases hd with
    | nil => cases hslash
    | plain _ hplain => exact absurd (List.cons.inj hslash).1 hplain
    | letter hl =>
      obtain ⟨-, hrest⟩ := List.cons.inj hslash
      exact absurd (List.cons.inj hrest).1 (letterEscape?_of_mem hl).1
    | code hm hd' =>
      obtain ⟨-, hrest⟩ := List.cons.inj hslash
      obtain ⟨-, rfl⟩ := List.cons.inj hrest
      have hcode' := (run_bind (run_hexCode (hm.append ('"' :: u))) _).symm.trans hcode
      split_ifs at hcode' with htrailing'
      · simp only [isLeading, isTrailing, Bool.and_eq_true,
          decide_eq_true_eq] at hleading htrailing'
        have hlength := hm.length_eq
        refine ⟨_, _, hd', by simp only [List.length_cons]; omega, fun u =>
          .pair (hn.append _) (hm.append _) (by omega) (by omega) (Text.val_ofNat ?_)⟩
        omega
      · cases hcode'
  · refine ⟨Char.ofNat n, d, hd, Nat.le_refl _, fun u => .code ?_⟩
    have hlt := CodeText.lt hn
    simp only [isLeading, isTrailing, Bool.and_eq_true, decide_eq_true_eq, not_and, Nat.not_le]
      at hleading htrailing
    rw [Char.toNat, Text.val_ofNat (by omega)]
    exact hn.append _

theorem exists_spells_of_run {d : List Char} (hd : Spelling d) {fuel : Nat} {before : List Char}
    {p : List Char × List Char} (h : (stringFrom escape fuel before).run (d ++ '"' :: u) = .ok p) :
    ∃ cs, Spells d cs := by
  -- on the length, since a surrogate pair takes two escapes at once
  induction hlength : d.length using Nat.strongRecOn generalizing d fuel before with
  | ind n ih =>
    obtain rfl := hlength
    cases fuel with
    | zero => cases h
    | succ fuel =>
      cases hd with
      | nil => exact ⟨[], fun s => .close s⟩
      | @plain c d hquote hslash hcontrol hd =>
        rw [List.cons_append, run_stringFrom_plain _ hquote hslash hcontrol] at h
        obtain ⟨cs, hcs⟩ := ih d.length (Nat.lt_succ_self _) hd h rfl
        exact ⟨c :: cs, fun s => .char (.plain _ hquote hslash hcontrol) (hcs s)⟩
      | @letter l c d hl hd =>
        have hchar : ∀ s, CharText ('\\' :: l :: (d ++ '"' :: s)) c (d ++ '"' :: s) :=
          fun s => .letter _ hl
        rw [List.cons_append, List.cons_append, run_stringFrom_char (hchar u)] at h
        obtain ⟨cs, hcs⟩ := ih d.length (by simp only [List.length_cons]; omega) hd h rfl
        exact ⟨c :: cs, fun s => .char (hchar s) (hcs s)⟩
      | @code s d n hn hd =>
        have hescape : (escape >>= fun c => stringFrom escape fuel (c :: before)).run
            ('u' :: (s ++ '"' :: u)) = .ok p := h
        obtain ⟨_, _, hcode, -⟩ := exists_of_run_bind hescape
        rw [run_escape_code] at hcode
        obtain ⟨c, d', hd', hshorter, hchar⟩ := charText_of_run_codeEscape hn hd hcode
        have hlength := hn.length_eq
        rw [List.cons_append, List.cons_append, run_stringFrom_char (hchar u)] at h
        obtain ⟨cs, hcs⟩ := ih d'.length (by simp only [List.length_cons]; omega) hd' h rfl
        exact ⟨c :: cs, fun s => .char (hchar s) (hcs s)⟩

/-- A string that is read is spelled as a text. -/
theorem exists_spells_of_run_stringBody {d : List Char} (hd : Spelling d)
    {p : List Char × List Char} (h : stringBody.run (d ++ '"' :: u) = .ok p) :
    ∃ cs, Spells d cs := by
  unfold stringBody at h
  rw [run_bind (run_get _)] at h
  exact exists_spells_of_run hd h

theorem takes_textFor (wanted : Wanted) {d cs : List Char} (h : Spells d cs) :
    Takes (textFor wanted) (.text d) cs := by
  intro s t u hs hv
  cases hv with
  | text =>
    unfold textFor
    rw [run_expecting hs rfl rfl, run_bind (run_skip _ _), run_stringBody (h u)]

theorem takes_text {d : List Char} {text : String} (h : Spells d text.toList) :
    Takes Reader.text (.text d) text := by
  have hmap := (takes_textFor .text h).map String.ofList
  rwa [String.ofList_toList] at hmap

theorem settles_textFor (wanted : Wanted) : Settles (textFor wanted) := by
  have hother : ∀ v : Tree, ¬v.Starts '"' → Refuses (textFor wanted) v := fun v hv =>
    refuses_expecting fun c hc => if_neg (Tree.Starts.ne hc hv)
  intro v
  cases v with
  | text d =>
    by_cases hspells : ∃ cs, Spells d cs
    · obtain ⟨cs, hcs⟩ := hspells
      exact .inl ⟨cs, takes_textFor wanted hcs⟩
    · refine .inr fun s t u p hs hv hrun => hspells ?_
      cases hv with
      | text _ hd =>
        unfold textFor at hrun
        rw [run_expecting hs rfl rfl, run_bind (run_skip _ _)] at hrun
        exact exists_spells_of_run_stringBody hd hrun
  | _ => exact .inr (hother _ (by simp [Tree.Starts]))

theorem settles_text : Settles text := (settles_textFor .text).map String.ofList

theorem settles_boolean : Settles boolean := by
  have hother : ∀ v : Tree, ¬v.Starts 't' → ¬v.Starts 'f' → Refuses boolean v := fun v ht hf =>
    refuses_expecting fun c hc => by
      rw [if_neg (Tree.Starts.ne hc ht), if_neg (Tree.Starts.ne hc hf)]
  intro v
  cases v with
  | boolean b =>
    refine .inl ⟨b, fun s t u hs hv => ?_⟩
    unfold boolean
    cases hv <;> rw [run_expecting hs rfl rfl] <;> rfl
  | _ => exact .inr (hother _ (by simp [Tree.Starts]) (by simp [Tree.Starts]))

theorem takes_unit : Takes unit .null () := by
  intro s t u hs hv
  cases hv with
  | null =>
    unfold unit
    rw [run_expecting hs rfl rfl]
    rfl

theorem eq_null_of_run_unit {v : Tree} (hs : Blanks s t) (hv : TreeText t v u)
    {p : Unit × List Char} (hrun : unit.run s = .ok p) : v = .null := by
  by_contra hnull
  have hother : ¬v.Starts 'n' := by
    cases v with
    | null => exact absurd rfl hnull
    | _ => simp [Tree.Starts]
  exact refuses_expecting (fun c hc => if_neg (Tree.Starts.ne hc hother)) s t u p hs hv hrun

/-- Of digits that make up more than 64 bits not all are gathered. -/
theorem gather_lt {ds : List Char} {n : Nat} (hn : n ≤ maxSignificand)
    (h : maxSignificand < Nat.ofDigitChars 10 ds n) : (gather n ds).2 < ds.length := by
  induction ds generalizing n with
  | nil => exact absurd h (Nat.not_lt.mpr hn)
  | cons c ds ih =>
    have hnext :
        Nat.ofDigitChars 10 (c :: ds) n = Nat.ofDigitChars 10 ds (n * 10 + digitValue c) := by
      rw [Nat.mul_comm]
      rfl
    rw [hnext] at h
    unfold gather
    split_ifs with hfits
    · exact Nat.succ_pos _
    · exact Nat.succ_lt_succ (ih (Nat.not_lt.mp hfits) h)

/-- When a number is read as a whole one, digits were read that were all gathered and are followed
by neither a fraction nor an exponent; after a sign it is negative. -/
theorem exists_of_run_unsignedNumber {negative : Bool} {n : Int}
    (h : (unsignedNumber negative).run s = .ok (.whole n, t)) :
    ∃ ds, wholeDigits.run s = .ok (ds, t) ∧ ds.length ≤ (gather 0 ds).2 ∧
      (∀ c ∈ t.head?, c ≠ '.' ∧ c ≠ 'e' ∧ c ≠ 'E') ∧ (negative = true → n < 0) := by
  unfold unsignedNumber at h
  obtain ⟨ds, w, hdigits, hrest⟩ := exists_of_run_bind h
  simp only at hrest
  rw [run_bind (run_peek _)] at hrest
  split_ifs at hrest with hfloat hsign hzero
  · obtain ⟨_, _, -, hfault⟩ := exists_of_run_bind hrest
    cases hfault
  · cases hrest
    refine ⟨ds, hdigits, by omega, fun c hc => ?_, by simp_all⟩
    simp_all
  · obtain ⟨_, _, -, hfault⟩ := exists_of_run_bind hrest
    cases hfault
  · cases hrest
    refine ⟨ds, hdigits, by omega, fun c hc => ?_, fun _ => by omega⟩
    simp_all

/-- A number that is read as a whole one from zero up has neither sign nor fraction nor exponent,
and fits 64 bits. -/
theorem wholePart_of_run_number {d : List Char} (hd : NumberText d) (ht : EndsNumber t) {n : Int}
    (h : number.run (d ++ t) = .ok (.whole n, u)) (hn : 0 ≤ n) :
    WholePart d ∧ Nat.ofDigitChars 10 d 0 ≤ maxSignificand := by
  cases hd with
  | @parts sign whole fraction exponent hsign hwhole hfraction hexponent =>
    rcases List.mem_pair.mp hsign with rfl | rfl
    · have hends := hfraction.endsDigits (hexponent.endsDigits ht)
      have hfirst : (whole ++ (fraction ++ exponent) ++ t).head? ≠ some '-' := by
        obtain ⟨c, ds, rfl, hc⟩ := hwhole.eq_cons
        rintro ⟨⟩
        cases hc
      unfold number at h
      rw [List.nil_append, run_bind (run_peek _), if_neg hfirst, List.append_assoc,
        List.append_assoc] at h
      obtain ⟨ds, hdigits, hgathered, hplain, -⟩ := exists_of_run_unsignedNumber h
      rw [run_wholeDigits hwhole hends] at hdigits
      cases hdigits
      have hfraction : fraction = [] := by
        cases hfraction with
        | none => rfl
        | digits => exact absurd rfl (hplain _ rfl).1
      subst hfraction
      have hexponent : exponent = [] := by
        cases hexponent with
        | none => rfl
        | digits hc =>
          obtain ⟨-, he, hE⟩ := hplain _ rfl
          rcases List.mem_pair.mp hc with rfl | rfl
          · exact absurd rfl he
          · exact absurd rfl hE
      subst hexponent
      rw [List.nil_append, List.nil_append, List.append_nil]
      refine ⟨hwhole, Nat.le_of_not_lt fun hlarge => ?_⟩
      have hgathered' := gather_lt (Nat.zero_le _) hlarge
      omega
    · obtain ⟨ds, -, -, -, hneg⟩ :=
        exists_of_run_unsignedNumber (show (unsignedNumber true).run _ = _ from h)
      have hneg := hneg rfl
      omega

theorem takes_unsigned {bits : Nat} {d : List Char} (hwhole : WholePart d)
    (hfits : Nat.ofDigitChars 10 d 0 ≤ maxSignificand)
    (hbits : Nat.ofDigitChars 10 d 0 < Nat.pow 2 bits) :
    Takes (unsigned bits) (.number d) (Nat.ofDigitChars 10 d 0) := by
  intro s t u hs hv
  cases hv with
  | number _ h =>
    obtain ⟨c, ds, rfl, hc⟩ := hwhole.eq_cons
    have hnumber := run_number hwhole hfits h
    rw [List.cons_append] at hs hnumber
    unfold unsigned
    rw [run_expecting hs (isSpace_of_starts (.inr hc)) (if_pos (by simp [startsNumber, hc])),
      run_bind hnumber]
    simp only [Int.natCast_nonneg, Int.toNat_natCast, hbits, and_self, if_true]
    rfl

theorem refuses_unsigned {bits : Nat} {d : List Char}
    (h : ¬(WholePart d ∧ Nat.ofDigitChars 10 d 0 ≤ maxSignificand ∧
      Nat.ofDigitChars 10 d 0 < Nat.pow 2 bits)) : Refuses (unsigned bits) (.number d) := by
  intro s t u p hs hv hrun
  refine h ?_
  -- of what is read as a whole number all is in the digits: no sign, fraction or exponent is left
  cases hv with
  | number hnumber hends =>
    obtain ⟨c, ds, hds, hc⟩ := hnumber.starts
    unfold unsigned at hrun
    rw [hds, List.cons_append] at hs
    rw [run_expecting hs (isSpace_of_starts hc) (if_pos (by simpa [startsNumber] using hc)),
      ← List.cons_append, ← hds] at hrun
    obtain ⟨x, w, hread, hrest⟩ := exists_of_run_bind hrun
    cases x with
    | float => cases hrest
    | whole n =>
      simp only at hrest
      split_ifs at hrest with hrange
      · obtain ⟨hwhole, hfits⟩ := wholePart_of_run_number hnumber hends hread hrange.1
        rw [run_number hwhole hfits hends] at hread
        cases hread
        exact ⟨hwhole, hfits, by simpa using hrange.2⟩
      · cases hrest

theorem settles_unsigned (bits : Nat) : Settles (unsigned bits) := by
  have hother : ∀ v : Tree, (∀ c, v.Starts c → startsNumber c = false) →
      Refuses (unsigned bits) v :=
    fun v hv => refuses_expecting fun c hc => by simp [hv c hc]
  intro v
  cases v with
  | number d =>
    by_cases hd : WholePart d ∧ Nat.ofDigitChars 10 d 0 ≤ maxSignificand ∧
        Nat.ofDigitChars 10 d 0 < Nat.pow 2 bits
    · obtain ⟨hwhole, hfits, hbits⟩ := hd
      exact .inl ⟨_, takes_unsigned hwhole hfits hbits⟩
    · exact .inr (refuses_unsigned hd)
  | boolean => exact .inr (hother _ (by rintro c (rfl | rfl) <;> rfl))
  | _ => exact .inr (hother _ (by rintro c ⟨⟩; rfl))

theorem settles_uint8 : Settles uint8 := (settles_unsigned 8).map UInt8.ofNat

theorem settles_uint16 : Settles uint16 := (settles_unsigned 16).map UInt16.ofNat

theorem settles_uint64 : Settles uint64 := (settles_unsigned 64).map UInt64.ofNat

theorem takes_uint16 {d : List Char} (hwhole : WholePart d)
    (hnarrow : Nat.ofDigitChars 10 d 0 < 65536) :
    Takes uint16 (.number d) (UInt16.ofNat (Nat.ofDigitChars 10 d 0)) := by
  have hfits : Nat.ofDigitChars 10 d 0 ≤ maxSignificand :=
    Nat.le_of_lt (Nat.lt_of_lt_of_le hnarrow (by decide))
  have htakes : Takes (unsigned 16) (.number d) _ := takes_unsigned hwhole hfits hnarrow
  exact htakes.map UInt16.ofNat

theorem refuses_uint16 {d : List Char} (hwide : 65536 ≤ Nat.ofDigitChars 10 d 0) :
    Refuses uint16 (.number d) := by
  have hrefuses : Refuses (unsigned 16) (.number d) :=
    refuses_unsigned fun hfits => absurd hfits.2.2 (Nat.not_lt.mpr hwide)
  exact hrefuses.map UInt16.ofNat

/-- When a list is read, each item is taken to a result. -/
theorem exists_of_run_itemsFrom {item : Reader α} (hitem : Settles item) {vs : List Tree}
    {first : Bool} (h : Listed TreeText first s vs t) {fuel : Nat} {before : List α}
    (hfirst : before.isEmpty = first) {p : List α × List Char}
    (hrun : (itemsFrom item fuel before).run s = .ok p) :
    ∃ as, List.Forall₂ (Takes item) vs as := by
  induction vs generalizing s first fuel before with
  | nil => exact ⟨[], .nil⟩
  | cons v vs ih =>
    cases fuel with
    | zero => cases hrun
    | succ fuel =>
      cases h with
      | item hbefore hv hrest =>
        obtain ⟨c, u, rfl, hc, hclose⟩ := headed_treeText hv
        rw [itemsFrom, hfirst, run_bind (run_moreItems hbefore hc hclose)] at hrun
        simp only [if_true] at hrun
        obtain ⟨a, w, hread, hrun⟩ := exists_of_run_bind hrun
        obtain ⟨rfl, htakes⟩ := hitem.taken (.none _) hv hread
        obtain ⟨as, has⟩ := ih hrest rfl hrun
        exact ⟨a :: as, .cons htakes has⟩

end Reader

theorem Listed.fits {s t : List Char} {vs : List Tree} {first : Bool}
    (h : Listed TreeText first s vs t) : vs.length < s.length := by
  have hlength := h.length_lt fun _ _ _ _ => TreeText.length_lt
  omega

theorem Membered.fits {s t : List Char} {ms : List (List Char × Tree)} {first : Bool}
    (h : Membered Quoted TreeText first s ms t) : ms.length < s.length := by
  have hlength := h.length_lt (by rintro _ t d rfl; simp; omega) fun _ _ _ _ => TreeText.length_lt
  omega

theorem takes_list {item : Reader α} {vs : List Tree} {as : List α}
    (h : List.Forall₂ (Takes item) vs as) : Takes (Reader.list item) (.list vs) as := by
  intro s t u hs hv
  cases hv with
  | list hitems => exact Reader.run_list headed_treeText h hs hitems hitems.fits

theorem exists_items_of_run_list {item : Reader α} (hitem : Settles item) {vs : List Tree}
    {s t u : List Char} (hs : Blanks s t) (hv : TreeText t (.list vs) u) {p : List α × List Char}
    (hrun : (Reader.list item).run s = .ok p) : ∃ as, List.Forall₂ (Takes item) vs as := by
  cases hv with
  | list h =>
    unfold Reader.list at hrun
    rw [Reader.run_expecting hs rfl rfl, Reader.run_bind (Reader.run_skip _ _),
      Reader.run_bind (Reader.run_get _)] at hrun
    obtain ⟨as, w, hread, -⟩ := Reader.exists_of_run_bind hrun
    exact Reader.exists_of_run_itemsFrom hitem h rfl hread

theorem Settles.list {item : Reader α} (hitem : Settles item) : Settles (Reader.list item) := by
  have hother : ∀ v : Tree, ¬v.Starts '[' → Refuses (Reader.list item) v := fun v hv =>
    refuses_expecting fun c hc => if_neg (Tree.Starts.ne hc hv)
  intro v
  cases v with
  | list vs =>
    by_cases hitems : ∃ as, List.Forall₂ (Takes item) vs as
    · obtain ⟨as, has⟩ := hitems
      exact .inl ⟨as, takes_list has⟩
    · exact .inr fun s t u p hs hv hrun => hitems (exists_items_of_run_list hitem hs hv hrun)
  | _ => exact .inr (hother _ (by simp [Tree.Starts]))

end AlarmBridge.Json
