import AlarmBridge.Proofs.Json.Tree

/-! Leaving out a value takes exactly one tree off a text, whatever the tree.  After each value the
reader has the closing marks that come next and a comma left out: what is still open then is the
same list or object as before, or what it stands in. -/

set_option autoImplicit false

namespace AlarmBridge.Json

theorem Frame.closing_spec (frame : Frame) :
    frame.closing ≠ ',' ∧ isSpace frame.closing = false := by
  cases frame <;> decide

namespace Reader

variable {s t u : List Char}

theorem run_skipDigits {ds : List Char} (hds : Digits ds) (h : EndsDigits t) :
    skipDigits.run (ds ++ t) = .ok ((), t) := by
  obtain ⟨c, cs, rfl⟩ := List.exists_cons_of_ne_nil hds.1
  unfold skipDigits
  rw [run_bind (run_digits hds.2 h)]
  rfl

/-- The last part of `skipUnsigned`, from the exponent on. -/
def skipExponent : Reader Unit := do
  if ← atExponent then
    skip
    let sign ← peek
    if sign = some '+' ∨ sign = some '-' then skip
    skipDigits

/-- The part of `skipUnsigned` after the whole digits. -/
def skipFraction : Reader Unit := do
  if (← peek) = some '.' then
    skip
    skipDigits
  skipExponent

theorem run_skipExponent {exponent : List Char} (hexponent : ExponentPart exponent)
    (h : EndsNumber t) :
    skipExponent.run (exponent ++ t) = .ok ((), t) := by
  cases hexponent with
  | none =>
    have hnone : atExponent.run t = .ok (false, t) := by
      cases t with
      | nil => rfl
      | cons c t =>
        obtain ⟨-, -, he, hE⟩ := h c rfl
        show Except.ok (decide (some c = some 'e') || decide (some c = some 'E'), c :: t) = _
        simp [he, hE]
    unfold skipExponent
    rw [List.nil_append, run_bind hnone]
    rfl
  | @digits c sign ds hc hsign hds =>
    have hdigits := run_skipDigits hds h.endsDigits
    have hat :
        atExponent.run (c :: (sign ++ (ds ++ t))) = .ok (true, c :: (sign ++ (ds ++ t))) := by
      rcases List.mem_pair.mp hc with rfl | rfl <;> rfl
    unfold skipExponent
    rw [List.cons_append, List.append_assoc, run_bind hat]
    simp only [if_true]
    rw [run_bind (run_skip _ _), run_bind (run_peek _)]
    rcases (show sign = [] ∨ sign = ['+'] ∨ sign = ['-'] by simpa using hsign) with rfl | rfl | rfl
    · obtain ⟨d, ds, rfl⟩ := List.exists_cons_of_ne_nil hds.1
      have hd := hds.2 d List.mem_cons_self
      simp only [List.nil_append, List.cons_append, List.head?_cons, Option.some.injEq,
        ne_of_isDigit hd (d := '+') rfl, ne_of_isDigit hd (d := '-') rfl, or_self, if_false]
      exact hdigits
    · exact hdigits
    · exact hdigits

theorem run_skipFraction {fraction exponent : List Char} (hfraction : FractionPart fraction)
    (hexponent : ExponentPart exponent) (h : EndsNumber t) :
    skipFraction.run (fraction ++ (exponent ++ t)) = .ok ((), t) := by
  have hlast := run_skipExponent hexponent h
  unfold skipFraction
  rw [run_bind (run_peek _)]
  cases hfraction with
  | none =>
    have hnone : (exponent ++ t).head? ≠ some '.' := by
      intro hpoint
      cases hexponent with
      | none => exact (h _ hpoint).2.1 rfl
      | digits hc =>
        cases Option.some.inj hpoint
        simp at hc
    simp only [List.nil_append, hnone, if_false]
    exact hlast
  | digits hds =>
    simp only [List.cons_append, List.head?_cons, if_true]
    rw [run_bind (run_skip _ _), run_bind (run_skipDigits hds (hexponent.endsDigits h))]
    exact hlast

theorem run_skipUnsigned {whole fraction exponent : List Char} (hwhole : WholePart whole)
    (hfraction : FractionPart fraction) (hexponent : ExponentPart exponent) (h : EndsNumber t) :
    skipUnsigned.run (whole ++ (fraction ++ (exponent ++ t))) = .ok ((), t) := by
  have hends := hfraction.endsDigits (hexponent.endsDigits h)
  have hrest := run_skipFraction hfraction hexponent h
  unfold skipUnsigned
  rw [run_bind (run_get _)]
  cases hwhole with
  | zero =>
    simp only [List.singleton_append, if_true, head?_any_isDigit hends]
    exact hrest
  | digits hc hds =>
    simp only [List.cons_append, hc, if_false]
    rw [← List.cons_append, run_bind (run_skipDigits hds hends)]
    exact hrest

theorem run_escapeLoosely_letter {l c : Char} (h : (l, c) ∈ letterEscapes) :
    escapeLoosely.run (l :: s) = .ok (c, s) := by
  obtain ⟨hcode, hletter⟩ := letterEscape?_of_mem h
  unfold escapeLoosely
  rw [run_bind (run_get _)]
  simp only [hcode, hletter, if_false]
  rfl

theorem run_escapeLoosely_code {n : Nat} (h : CodeText s n t) :
    escapeLoosely.run ('u' :: s) = .ok ('u', t) := by
  unfold escapeLoosely
  rw [run_bind (run_get _)]
  simp only [if_true]
  rw [run_bind (run_set _ _), run_bind (run_discard (run_hexCode h))]
  rfl

theorem exists_run_stringFrom {d : List Char} (hd : Spelling d) {fuel : Nat}
    (hfuel : d.length < fuel) (before : List Char) :
    ∃ cs, (stringFrom escapeLoosely fuel before).run (d ++ '"' :: t) = .ok (cs, t) := by
  induction hd generalizing fuel before with
  | nil =>
    obtain ⟨fuel, rfl⟩ := Nat.exists_eq_add_one.mpr (Nat.zero_lt_of_lt hfuel)
    exact ⟨before.reverse, rfl⟩
  | @plain c d hquote hslash hcontrol _ ih =>
    obtain ⟨fuel, rfl⟩ := Nat.exists_eq_add_one.mpr (Nat.zero_lt_of_lt hfuel)
    obtain ⟨cs, hcs⟩ := ih (Nat.lt_of_succ_lt_succ hfuel) (c :: before)
    exact ⟨cs, (run_stringFrom_plain _ hquote hslash hcontrol fuel before).trans hcs⟩
  | @letter l c d hl _ ih =>
    obtain ⟨fuel, rfl⟩ := Nat.exists_eq_add_one.mpr (Nat.zero_lt_of_lt hfuel)
    have hshorter : d.length < fuel := by
      simp only [List.length_cons] at hfuel
      omega
    obtain ⟨cs, hcs⟩ := ih hshorter (c :: before)
    exact ⟨cs, (run_stringFrom_escape (run_escapeLoosely_letter hl) fuel before).trans hcs⟩
  | @code s d n hn _ ih =>
    obtain ⟨fuel, rfl⟩ := Nat.exists_eq_add_one.mpr (Nat.zero_lt_of_lt hfuel)
    have hshorter : d.length < fuel := by
      simp only [List.length_cons, hn.length_eq] at hfuel
      omega
    have hcode := run_escapeLoosely_code (hn.append ('"' :: t))
    obtain ⟨cs, hcs⟩ := ih hshorter ('u' :: before)
    exact ⟨cs, (run_stringFrom_escape hcode fuel before).trans hcs⟩

/-- A string is left out whatever its spelling. -/
theorem run_skipString {d : List Char} (hd : Spelling d) :
    skipString.run (d ++ '"' :: t) = .ok ((), t) := by
  have hfuel : d.length < (d ++ '"' :: t).length + 1 := by
    rw [List.length_append]
    omega
  obtain ⟨cs, hcs⟩ := exists_run_stringFrom hd hfuel []
  unfold skipString
  rw [run_bind (run_get _)]
  exact run_discard hcs

theorem run_skipKey {d w : List Char} (hs : Blanks s ('"' :: t)) (ht : Quoted t d u)
    (hd : Spelling d) (hu : Blanks u (':' :: w)) : skipKey.run s = .ok ((), w) := by
  obtain rfl : t = d ++ '"' :: u := ht
  unfold skipKey
  rw [run_bind (run_peekPastSpaces hs rfl)]
  simp only [if_true]
  rw [run_bind (run_skip _ _), run_bind (run_skipString hd), run_bind (run_peekPastSpaces hu rfl)]
  rfl

theorem run_open_list (hs : Blanks s ('[' :: t)) : open?.run s = .ok (some .list, t) := by
  unfold open?
  rw [run_bind (run_peekPastSpaces hs rfl)]
  rfl

theorem run_open_object (hs : Blanks s ('\x7b' :: t)) : open?.run s = .ok (some .object, t) := by
  unfold open?
  rw [run_bind (run_peekPastSpaces hs rfl)]
  rfl

/-- Anything but a list or an object is left out at once. -/
theorem run_open_leaf {v : Tree} (hs : Blanks s t) (hv : TreeText t v u)
    (hlist : ∀ vs, v ≠ .list vs) (hobject : ∀ ms, v ≠ .object ms) :
    open?.run s = .ok (none, u) := by
  unfold open?
  cases hv with
  | null =>
    rw [run_bind (run_peekPastSpaces hs rfl)]
    rfl
  | isTrue =>
    rw [run_bind (run_peekPastSpaces hs rfl)]
    rfl
  | isFalse =>
    rw [run_bind (run_peekPastSpaces hs rfl)]
    rfl
  | number hd h =>
    cases hd with
    | parts hsign hwhole hfraction hexponent =>
      have hskip := run_skipUnsigned hwhole hfraction hexponent h
      rcases List.mem_pair.mp hsign with rfl | rfl
      · obtain ⟨c, cs, rfl, hc⟩ := hwhole.eq_cons
        simp only [List.nil_append, List.cons_append, List.append_assoc] at hs hskip ⊢
        rw [run_bind (run_peekPastSpaces hs (isSpace_of_starts (.inr hc)))]
        simp only [ne_of_isDigit hc (d := 'n') rfl, ne_of_isDigit hc (d := 't') rfl,
          ne_of_isDigit hc (d := 'f') rfl, ne_of_isDigit hc (d := '-') rfl, hc, if_false, if_true]
        rw [run_bind hskip]
        rfl
      · simp only [List.nil_append, List.cons_append, List.append_assoc] at hs ⊢
        rw [run_bind (run_peekPastSpaces hs rfl)]
        show (skip >>= _).run _ = _
        rw [run_bind (run_skip _ _), run_bind hskip]
        rfl
  | text _ hd =>
    rw [run_bind (run_peekPastSpaces hs rfl)]
    show (skip >>= _).run _ = _
    rw [run_bind (run_skip _ _), run_bind (run_skipString hd)]
    rfl
  | list => exact absurd rfl (hlist _)
  | object => exact absurd rfl (hobject _)

theorem run_close_end {frame : Frame} (h : Blanks s (frame.closing :: t)) (frames : List Frame)
    (comma : Bool) : (close (frame :: frames) comma).run s = (close frames true).run t := by
  obtain ⟨hcomma, hspace⟩ := frame.closing_spec
  rw [close, run_bind (run_peekPastSpaces h hspace)]
  simp only [hcomma, false_and, if_false, if_true]
  rw [run_bind (run_skip _ _)]

theorem run_close_comma (h : Blanks s (',' :: t)) (frame : Frame) (frames : List Frame) :
    (close (frame :: frames) true).run s = .ok (frame :: frames, t) := by
  unfold close
  rw [run_bind (run_peekPastSpaces h rfl)]
  rfl

theorem run_close_first {c : Char} (frame : Frame) (h : Blanks s (c :: t)) (hc : isSpace c = false)
    (hclose : c ≠ frame.closing) (frames : List Frame) :
    (close (frame :: frames) false).run s = .ok (frame :: frames, c :: t) := by
  unfold close
  rw [run_bind (run_peekPastSpaces h hc)]
  simp only [Bool.false_eq_true, and_false, hclose, if_false]
  rfl

/-- How `skipFrom` goes on, given what is open. -/
def skipNext (fuel : Nat) : List Frame → Reader Unit
  | [] => pure ()
  | .list :: frames => skipFrom fuel (.list :: frames)
  | .object :: frames => do
    skipKey
    skipFrom fuel (.object :: frames)

/-- What `skipFrom` does after a value. -/
def afterValue (fuel : Nat) (frames : List Frame) : Reader Unit := do
  skipNext fuel (← close frames true)

theorem run_skipFrom_leaf (h : open?.run s = .ok (none, t)) (fuel : Nat) (frames : List Frame) :
    (skipFrom (fuel + 1) frames).run s = (afterValue fuel frames).run t := by
  unfold skipFrom
  rw [run_bind h]
  refine congrFun (congrArg _ ?_) t
  unfold afterValue
  refine bind_congr fun frames => ?_
  rcases frames with _ | ⟨_ | _, _⟩ <;> rfl

theorem run_skipFrom_opened {frame : Frame} (h : open?.run s = .ok (some frame, t)) (fuel : Nat)
    (frames : List Frame) :
    (skipFrom (fuel + 1) frames).run s =
      (close (frame :: frames) false >>= skipNext fuel).run t := by
  unfold skipFrom
  rw [run_bind h]
  refine congrFun (congrArg _ ?_) t
  refine bind_congr fun frames => ?_
  rcases frames with _ | ⟨_ | _, _⟩ <;> rfl

/-- With enough fuel, the reader gets past a value with at least as much fuel left as text. -/
def Skips (v : Tree) : Prop :=
  ∀ {s t u : List Char} (fuel : Nat) (frames : List Frame), Blanks s t → TreeText t v u →
    s.length < fuel → ∃ fuel' ≥ u.length,
      (skipFrom fuel frames).run s = (afterValue fuel' frames).run u

theorem run_afterValue_end {frame : Frame} (h : Blanks s (frame.closing :: t)) (fuel : Nat)
    (frames : List Frame) :
    (afterValue fuel (frame :: frames)).run s = (afterValue fuel frames).run t := by
  unfold afterValue
  rw [StateT.run_bind, StateT.run_bind, run_close_end h]

theorem run_afterValue_comma (h : Blanks s (',' :: t)) (fuel : Nat) (frame : Frame)
    (frames : List Frame) :
    (afterValue fuel (frame :: frames)).run s = (skipNext fuel (frame :: frames)).run t := by
  unfold afterValue
  rw [run_bind (run_close_comma h frame frames)]

/-- The items of a list after the first are left out, and its end. -/
theorem exists_run_items {vs : List Tree} (hvs : ∀ v ∈ vs, Skips v)
    (h : Listed TreeText false s vs t) {fuel : Nat} (hfuel : s.length ≤ fuel)
    (frames : List Frame) :
    ∃ fuel' ≥ t.length,
      (afterValue fuel (.list :: frames)).run s = (afterValue fuel' frames).run t := by
  induction vs generalizing s fuel with
  | nil =>
    cases h with
    | close h =>
      have hlength := h.length_le
      simp only [List.length_cons] at hlength
      exact ⟨fuel, by omega, run_afterValue_end h fuel frames⟩
  | cons v vs ih =>
    cases h with
    | item hbefore hv hrest =>
      cases hbefore with
      | comma h h' =>
        have hlength := h.length_le
        simp only [List.length_cons] at hlength
        obtain ⟨fuel', hfuel', hvalue⟩ :=
          hvs v List.mem_cons_self fuel (.list :: frames) h' hv (by omega)
        obtain ⟨fuel'', hfuel'', hitems⟩ :=
          ih (fun v hv => hvs v (List.mem_cons_of_mem _ hv)) hrest hfuel'
        exact ⟨fuel'', hfuel'', (run_afterValue_comma h fuel _ _).trans (hvalue.trans hitems)⟩

theorem exists_run_member {v : Tree} {d w x y : List Char} (hskips : Skips v)
    (hs : Blanks s ('"' :: t)) (hname : Quoted t d u) (hd : Spelling d)
    (hcolon : Blanks u (':' :: w)) (hspace : Blanks w x) (hv : TreeText x v y) {fuel : Nat}
    (hfuel : s.length ≤ fuel) (frames : List Frame) :
    ∃ fuel' ≥ y.length, (skipNext fuel (.object :: frames)).run s =
      (afterValue fuel' (.object :: frames)).run y := by
  have hkey :
      (skipNext fuel (.object :: frames)).run s = (skipFrom fuel (.object :: frames)).run w :=
    run_bind (run_skipKey hs hname hd hcolon) fun _ => skipFrom fuel (.object :: frames)
  have hshorter : w.length < fuel := by
    obtain rfl : t = d ++ '"' :: u := hname
    have hlength := hs.length_le
    have hlength' := hcolon.length_le
    simp only [List.length_cons, List.length_append] at hlength hlength'
    omega
  rw [hkey]
  exact hskips fuel (.object :: frames) hspace hv hshorter

/-- The members of an object after the first are left out, and its end. -/
theorem exists_run_members {ms : List (List Char × Tree)} (hms : ∀ m ∈ ms, Skips m.2)
    (hnames : ∀ m ∈ ms, Spelling m.1) (h : Membered Quoted TreeText false s ms t) {fuel : Nat}
    (hfuel : s.length ≤ fuel) (frames : List Frame) :
    ∃ fuel' ≥ t.length,
      (afterValue fuel (.object :: frames)).run s = (afterValue fuel' frames).run t := by
  induction ms generalizing s fuel with
  | nil =>
    cases h with
    | close h =>
      have hlength := h.length_le
      simp only [List.length_cons] at hlength
      exact ⟨fuel, by omega, run_afterValue_end h fuel frames⟩
  | cons m ms ih =>
    cases h with
    | member hbefore hname hcolon hspace hv hrest =>
      cases hbefore with
      | comma h h' =>
        have hlength := h.length_le
        have hlength' := h'.length_le
        simp only [List.length_cons] at hlength hlength'
        obtain ⟨fuel', hfuel', hmember⟩ := exists_run_member (hms _ List.mem_cons_self) h' hname
          (hnames _ List.mem_cons_self) hcolon hspace hv (by omega : _ ≤ fuel) frames
        obtain ⟨fuel'', hfuel'', hmembers⟩ :=
          ih (fun m hm => hms m (List.mem_cons_of_mem _ hm))
            (fun m hm => hnames m (List.mem_cons_of_mem _ hm)) hrest hfuel'
        exact ⟨fuel'', hfuel'', (run_afterValue_comma h fuel _ _).trans (hmember.trans hmembers)⟩

theorem skips_leaf {v : Tree} (hlist : ∀ vs, v ≠ .list vs) (hobject : ∀ ms, v ≠ .object ms) :
    Skips v := by
  intro s t u fuel frames hs hv hfuel
  obtain ⟨fuel, rfl⟩ := Nat.exists_eq_add_one.mpr (Nat.zero_lt_of_lt hfuel)
  have hlength := hs.length_le
  have hshorter := hv.length_lt
  exact ⟨fuel, by omega, run_skipFrom_leaf (run_open_leaf hs hv hlist hobject) fuel frames⟩

theorem skips_list {vs : List Tree} (hvs : ∀ v ∈ vs, Skips v) : Skips (.list vs) := by
  intro s t u fuel frames hs hv hfuel
  obtain ⟨fuel, rfl⟩ := Nat.exists_eq_add_one.mpr (Nat.zero_lt_of_lt hfuel)
  have hlength := hs.length_le
  cases hv with
  | list h =>
    simp only [List.length_cons] at hlength
    have hopened := run_skipFrom_opened (run_open_list hs) fuel frames
    cases h with
    | close h =>
      have hlength' := h.length_le
      simp only [List.length_cons] at hlength'
      refine ⟨fuel, by omega, hopened.trans ?_⟩
      rw [afterValue, StateT.run_bind, StateT.run_bind, run_close_end h]
    | item hbefore hv hrest =>
      cases hbefore with
      | first h =>
        obtain ⟨c, w, rfl, hc, hclose⟩ := headed_treeText hv
        have hlength' := h.length_le
        simp only [List.length_cons] at hlength'
        obtain ⟨fuel', hfuel', hvalue⟩ := hvs _ List.mem_cons_self fuel (.list :: frames)
          (.none _) hv (by simp only [List.length_cons]; omega)
        obtain ⟨fuel'', hfuel'', hitems⟩ :=
          exists_run_items (fun v hv => hvs v (List.mem_cons_of_mem _ hv)) hrest hfuel' frames
        refine ⟨fuel'', hfuel'', hopened.trans (Eq.trans ?_ (hvalue.trans hitems))⟩
        rw [run_bind (run_close_first .list h hc hclose frames)]
        rfl

theorem skips_object {ms : List (List Char × Tree)} (hms : ∀ m ∈ ms, Skips m.2) :
    Skips (.object ms) := by
  intro s t u fuel frames hs hv hfuel
  obtain ⟨fuel, rfl⟩ := Nat.exists_eq_add_one.mpr (Nat.zero_lt_of_lt hfuel)
  have hlength := hs.length_le
  cases hv with
  | object hnames h =>
    simp only [List.length_cons] at hlength
    have hopened := run_skipFrom_opened (run_open_object hs) fuel frames
    cases h with
    | close h =>
      have hlength' := h.length_le
      simp only [List.length_cons] at hlength'
      refine ⟨fuel, by omega, hopened.trans ?_⟩
      rw [afterValue, StateT.run_bind, StateT.run_bind, run_close_end h]
    | member hbefore hname hcolon hspace hv hrest =>
      cases hbefore with
      | first h =>
        have hlength' := h.length_le
        obtain ⟨fuel', hfuel', hmember⟩ :=
          exists_run_member (hms _ List.mem_cons_self) (.none _) hname
            (hnames _ List.mem_cons_self) hcolon hspace hv (by omega : _ ≤ fuel) frames
        obtain ⟨fuel'', hfuel'', hmembers⟩ :=
          exists_run_members (fun m hm => hms m (List.mem_cons_of_mem _ hm))
            (fun m hm => hnames m (List.mem_cons_of_mem _ hm)) hrest hfuel' frames
        refine ⟨fuel'', hfuel'', hopened.trans (Eq.trans ?_ (hmember.trans hmembers))⟩
        rw [run_bind (run_close_first .object h rfl (by decide) frames)]

theorem skips (v : Tree) : Skips v := by
  -- what is open around the value is any stack of frames, so that the hypotheses serve within it
  induction v using Tree.induct with
  | null | boolean | number | text => exact skips_leaf (by nofun) (by nofun)
  | list _ ih => exact skips_list ih
  | object _ ih => exact skips_object ih

/-- Leaving out a value takes any tree off the text, and nothing else. -/
theorem takes_skipValue (v : Tree) : TakesBy TreeText skipValue v () := by
  intro s t u hs hv
  obtain ⟨fuel', -, hskip⟩ := skips v (s.length + 1) [] hs hv (Nat.lt_succ_self _)
  unfold skipValue
  rw [run_bind (run_get _), hskip]
  rfl

end Reader

end AlarmBridge.Json
