import AlarmBridge.Json.Shape
import AlarmBridge.Proofs.Json.Grammar
import AlarmBridge.Proofs.Yields

/-! Readers take the texts of values off the front: blanks, strings in any spelling, and whole
numbers. -/

set_option autoImplicit false

namespace AlarmBridge.Json

theorem HexDigit.hexValue?_eq {c : Char} {n : Nat} (h : HexDigit c n) : hexValue? c = some n := by
  have hall : ∀ n < 16, hexValue? (Nat.digitChar n) = some n ∧
      hexValue? (Nat.digitChar n).toUpper = some n := by
    decide
  obtain ⟨hn, rfl | rfl⟩ := h
  · exact (hall n hn).1
  · exact (hall n hn).2

theorem isSpace_of_mem {c : Char} (h : c ∈ [' ', '\n', '\t', '\r']) : isSpace c = true := by
  simpa [isSpace, or_assoc] using h

theorem ne_of_isDigit {c d : Char} (h : c.isDigit = true) (hd : d.isDigit = false) : c ≠ d := by
  rintro rfl
  rw [h] at hd
  cases hd

/-- Numbers do not start with a blank. -/
theorem isSpace_of_starts {c : Char} (h : c = '-' ∨ c.isDigit = true) : isSpace c = false := by
  rcases h with rfl | h
  · rfl
  · simp [isSpace, ne_of_isDigit h (d := ' ') rfl, ne_of_isDigit h (d := '\n') rfl,
      ne_of_isDigit h (d := '\t') rfl, ne_of_isDigit h (d := '\r') rfl]

theorem Blanks.dropWhile_eq {s t : List Char} (h : Blanks s t) :
    s.dropWhile isSpace = t.dropWhile isSpace := by
  induction h with
  | none => rfl
  | blank hc _ ih => rw [List.dropWhile_cons_of_pos (isSpace_of_mem hc), ih]

theorem Blanks.all_isSpace {s t : List Char} (h : Blanks s t) (ht : t.all isSpace = true) :
    s.all isSpace = true := by
  induction h with
  | none => exact ht
  | blank hc _ ih =>
    rw [List.all_cons, isSpace_of_mem hc, ih ht]
    rfl

theorem EndsDigits.takeWhile_eq {s : List Char} (h : EndsDigits s) :
    s.takeWhile Char.isDigit = [] := by
  cases s with
  | nil => rfl
  | cons c s => exact List.takeWhile_cons_of_neg (by simp [h c rfl])

theorem EndsDigits.dropWhile_eq {s : List Char} (h : EndsDigits s) :
    s.dropWhile Char.isDigit = s := by
  cases s with
  | nil => rfl
  | cons c s => exact List.dropWhile_cons_of_neg (by simp [h c rfl])

theorem le_ofDigitChars (ds : List Char) (n : Nat) : n ≤ Nat.ofDigitChars 10 ds n := by
  induction ds generalizing n with
  | nil => exact Nat.le_refl n
  | cons c ds ih =>
    calc n ≤ 10 * n + (c.toNat - '0'.toNat) := by omega
      _ ≤ Nat.ofDigitChars 10 (c :: ds) n := ih _

/-- Digits that make up no more than 64 bits are all gathered. -/
theorem gather_eq {ds : List Char} {n : Nat} (h : Nat.ofDigitChars 10 ds n ≤ maxSignificand) :
    gather n ds = (Nat.ofDigitChars 10 ds n, ds.length) := by
  induction ds generalizing n with
  | nil => rfl
  | cons c ds ih =>
    have hnext :
        Nat.ofDigitChars 10 (c :: ds) n = Nat.ofDigitChars 10 ds (n * 10 + digitValue c) := by
      rw [Nat.mul_comm]
      rfl
    have hfits : ¬maxSignificand < n * 10 + digitValue c :=
      Nat.not_lt.mpr (Nat.le_trans (le_ofDigitChars ds _) (hnext ▸ h))
    rw [gather, if_neg hfits, ih (hnext ▸ h), hnext, List.length_cons]

theorem toDigits_eq_cons_of_pos {n : Nat} (h : 0 < n) :
    ∃ c ds, Nat.toDigits 10 n = c :: ds ∧ c ≠ '0' := by
  induction n using Nat.strongRecOn with
  | ind n ih =>
    have hsmall : ∀ n < 10, 0 < n → Nat.digitChar n ≠ '0' := by decide
    by_cases hn : n < 10
    · exact ⟨_, [], Nat.toDigits_of_lt_base hn, hsmall n hn h⟩
    · obtain ⟨c, ds, hds, hc⟩ := ih (n / 10) (by omega) (by omega)
      refine ⟨c, ds ++ [Nat.digitChar (n % 10)], ?_, hc⟩
      rw [Nat.toDigits_of_base_le (by decide) (by omega), hds, List.cons_append]

theorem wholePart_toDigits (n : Nat) : WholePart (Nat.toDigits 10 n) := by
  rcases Nat.eq_zero_or_pos n with rfl | hn
  · exact .zero
  · obtain ⟨c, ds, hds, hc⟩ := toDigits_eq_cons_of_pos hn
    rw [hds]
    exact .digits hc ⟨List.cons_ne_nil c ds, fun d hd => isDigit_of_mem_toDigits (hds ▸ hd)⟩

namespace Reader

variable {α β : Type} {s t u : List Char}

/-- What comes after a reader goes on where that one stopped. -/
theorem run_bind {x : Reader α} {a : α} (h : x.run s = .ok (a, t)) (f : α → Reader β) :
    (x >>= f).run s = (f a).run t := run_bind_of_ok h f

theorem run_get (s : List Char) : (get : Reader (List Char)).run s = .ok (s, s) := rfl

theorem run_set (s t : List Char) : (set s : Reader PUnit).run t = .ok ((), s) := rfl

theorem run_peek (s : List Char) : peek.run s = .ok (s.head?, s) := rfl

theorem run_map {x : Reader α} {a : α} (h : x.run s = .ok (a, t)) (f : α → β) :
    (f <$> x).run s = .ok (f a, t) := by
  rw [StateT.run_map, h]
  rfl

theorem run_discard {x : Reader α} {a : α} (h : x.run s = .ok (a, t)) :
    (discard x).run s = .ok ((), t) := run_map h fun _ => ()

theorem run_peekPastSpaces {c : Char} (h : Blanks s (c :: t)) (hc : isSpace c = false) :
    peekPastSpaces.run s = .ok (some c, c :: t) := by
  have hdrop : s.dropWhile isSpace = c :: t := by
    rw [h.dropWhile_eq, List.dropWhile_cons_of_neg (by simp [hc])]
  show Except.ok ((s.dropWhile isSpace).head?, s.dropWhile isSpace) = _
  rw [hdrop]
  rfl

theorem run_expecting {wanted : Wanted} {read : Char → Option (Reader α)} {r : Reader α} {c : Char}
    (h : Blanks s (c :: t)) (hc : isSpace c = false) (hread : read c = some r) :
    (expecting wanted read).run s = r.run (c :: t) := by
  unfold expecting
  rw [run_bind (run_peekPastSpaces h hc)]
  simp only [hread]

theorem run_hexCode {n : Nat} (h : CodeText s n t) : hexCode.run s = .ok (n, t) := by
  cases h with
  | @digits w x y z a b c d _ _ ha hb hc hd hn =>
    have hvalue : hexValue4? w x y z = some n := by
      have hsum : (a * 16 + b) * 256 + c * 16 + d = n := by omega
      rw [hexValue4?, ha.hexValue?_eq, hb.hexValue?_eq, hc.hexValue?_eq, hd.hexValue?_eq, ← hsum]
      rfl
    unfold hexCode
    rw [run_bind (run_get _)]
    simp only [hvalue]
    rfl

theorem not_isTrailing_toNat (c : Char) :
    isTrailing c.toNat = false ∧ isLeading c.toNat = false := by
  have hvalid : c.toNat < 0xD800 ∨ (0xDFFF < c.toNat ∧ c.toNat < 0x110000) := c.valid
  simp only [isTrailing, isLeading, Bool.and_eq_false_iff, decide_eq_false_iff_not]
  omega

theorem run_codeEscape {c : Char} (h : CodeText s c.toNat t) : codeEscape.run s = .ok (c, t) := by
  obtain ⟨htrailing, hleading⟩ := not_isTrailing_toNat c
  unfold codeEscape
  rw [run_bind (run_hexCode h)]
  simp only [htrailing, hleading, Bool.false_eq_true, if_false, Char.ofNat_toNat]
  rfl

theorem run_codeEscape_pair {c : Char} {leading trailing : Nat}
    (hleading : CodeText s leading ('\\' :: 'u' :: t)) (htrailing : CodeText t trailing u)
    (hrange : 0xD800 ≤ leading ∧ leading < 0xDC00) (hrange' : 0xDC00 ≤ trailing ∧ trailing < 0xE000)
    (hc : c.toNat = 0x10000 + (leading - 0xD800) * 0x400 + (trailing - 0xDC00)) :
    codeEscape.run s = .ok (c, u) := by
  have hfirst : isTrailing leading = false ∧ isLeading leading = true := by
    simp only [isTrailing, isLeading, Bool.and_eq_false_iff, Bool.and_eq_true,
      decide_eq_false_iff_not, decide_eq_true_eq]
    omega
  have hsecond : isTrailing trailing = true := by
    simp only [isTrailing, Bool.and_eq_true, decide_eq_true_eq]
    omega
  have hslash : (demand '\\' .unfinishedSurrogate).run ('\\' :: 'u' :: t) = .ok ((), 'u' :: t) :=
    rfl
  have hletter : (demand 'u' .unfinishedSurrogate).run ('u' :: t) = .ok ((), t) := rfl
  unfold codeEscape
  rw [run_bind (run_hexCode hleading)]
  simp only [hfirst, Bool.false_eq_true, if_false, if_true]
  rw [run_bind hslash, run_bind hletter, run_bind (run_hexCode htrailing)]
  simp only [hsecond, if_true, ← hc, Char.ofNat_toNat]
  rfl

theorem letterEscape?_of_mem {l c : Char} (h : (l, c) ∈ letterEscapes) :
    l ≠ 'u' ∧ letterEscape? l = some c := by
  have hall : ∀ e ∈ letterEscapes, e.1 ≠ 'u' ∧ letterEscape? e.1 = some e.2 := by decide
  exact hall _ h

theorem run_escape_letter {l c : Char} (h : (l, c) ∈ letterEscapes) :
    escape.run (l :: s) = .ok (c, s) := by
  obtain ⟨hcode, hletter⟩ := letterEscape?_of_mem h
  unfold escape
  rw [run_bind (run_get _)]
  simp only [hcode, hletter, if_false]
  rfl

theorem run_escape_code (s : List Char) : escape.run ('u' :: s) = codeEscape.run s := rfl

theorem run_stringFrom_plain (escape : Reader Char) {c : Char} (hquote : c ≠ '"')
    (hslash : c ≠ '\\') (hcontrol : 0x20 ≤ c.toNat) (fuel : Nat) (before : List Char) :
    (stringFrom escape (fuel + 1) before).run (c :: s) =
      (stringFrom escape fuel (c :: before)).run s := by
  simp [stringFrom, hquote, hslash, Nat.not_lt.mpr hcontrol]

theorem run_stringFrom_escape {escape : Reader Char} {c : Char} (h : escape.run s = .ok (c, t))
    (fuel : Nat) (before : List Char) :
    (stringFrom escape (fuel + 1) before).run ('\\' :: s) =
      (stringFrom escape fuel (c :: before)).run t :=
  run_bind h fun c => stringFrom escape fuel (c :: before)

/-- One character of a string is read, whatever its spelling. -/
theorem run_stringFrom_char {c : Char} (h : CharText s c t) (fuel : Nat) (before : List Char) :
    (stringFrom escape (fuel + 1) before).run s = (stringFrom escape fuel (c :: before)).run t := by
  cases h with
  | plain _ hquote hslash hcontrol =>
    exact run_stringFrom_plain _ hquote hslash hcontrol fuel before
  | letter _ h => exact run_stringFrom_escape (run_escape_letter h) fuel before
  | code h => exact run_stringFrom_escape ((run_escape_code _).trans (run_codeEscape h)) fuel before
  | pair hleading htrailing hrange hrange' hc =>
    have hcode := run_codeEscape_pair hleading htrailing hrange hrange' hc
    exact run_stringFrom_escape ((run_escape_code _).trans hcode) fuel before

theorem run_stringFrom {cs : List Char} (h : StringText s cs t) {fuel : Nat}
    (hfuel : s.length ≤ fuel) (before : List Char) :
    (stringFrom escape fuel before).run s = .ok (before.reverse ++ cs, t) := by
  induction h generalizing fuel before with
  | close s =>
    obtain ⟨fuel, rfl⟩ := Nat.exists_eq_add_one.mpr (Nat.lt_of_lt_of_le (Nat.succ_pos _) hfuel)
    rw [List.append_nil]
    rfl
  | char hc _ ih =>
    have hlength := hc.length_lt
    obtain ⟨fuel, rfl⟩ := Nat.exists_eq_add_one.mpr (show 0 < fuel by omega)
    rw [run_stringFrom_char hc, ih (by omega), List.reverse_cons, List.append_assoc]
    rfl

theorem run_stringBody {cs : List Char} (h : StringText s cs t) : stringBody.run s = .ok (cs, t) :=
  run_stringFrom h (Nat.le_succ _) []

theorem run_digits {ds : List Char} (hds : ∀ c ∈ ds, c.isDigit = true) (h : EndsDigits t) :
    digits.run (ds ++ t) = .ok (ds, t) := by
  have htake : (ds ++ t).takeWhile Char.isDigit = ds := by
    rw [List.takeWhile_append_of_pos hds, h.takeWhile_eq, List.append_nil]
  have hdrop : (ds ++ t).dropWhile Char.isDigit = t := by
    rw [List.dropWhile_append_of_pos hds, h.dropWhile_eq]
  show Except.ok ((ds ++ t).takeWhile Char.isDigit, (ds ++ t).dropWhile Char.isDigit) = _
  rw [htake, hdrop]

theorem head?_any_isDigit (h : EndsDigits t) : t.head?.any Char.isDigit = false := by
  cases t with
  | nil => rfl
  | cons c t => exact h c rfl

theorem run_wholeDigits {ds : List Char} (hds : WholePart ds) (h : EndsDigits t) :
    wholeDigits.run (ds ++ t) = .ok (ds, t) := by
  cases hds with
  | zero =>
    unfold wholeDigits
    rw [run_bind (run_get _)]
    simp only [List.singleton_append, if_true, head?_any_isDigit h]
    rfl
  | digits hc hds =>
    unfold wholeDigits
    rw [run_bind (run_get _)]
    simp only [List.cons_append, hc, hds.2 _ List.mem_cons_self, if_false, if_true]
    rw [← List.cons_append, run_digits hds.2 h]

/-- A whole number of at most 64 bits is read. -/
theorem run_number {ds : List Char} (hds : WholePart ds)
    (hfits : Nat.ofDigitChars 10 ds 0 ≤ maxSignificand) (h : EndsNumber t) :
    number.run (ds ++ t) = .ok (.whole (Nat.ofDigitChars 10 ds 0 : Nat), t) := by
  have hsign : (ds ++ t).head? ≠ some '-' := by
    obtain ⟨c, cs, rfl, hc⟩ := hds.eq_cons
    rintro ⟨⟩
    cases hc
  have hrest : ¬(t.head? = some '.' ∨ t.head? = some 'e' ∨ t.head? = some 'E') := by
    rintro (hc | hc | hc)
    · exact (h _ hc).2.1 rfl
    · exact (h _ hc).2.2.1 rfl
    · exact (h _ hc).2.2.2 rfl
  unfold number
  rw [run_bind (run_peek _), if_neg hsign]
  unfold unsignedNumber
  rw [run_bind (run_wholeDigits hds h.endsDigits), gather_eq hfits]
  simp only
  rw [run_bind (run_peek _), if_neg (by simpa using hrest)]
  rfl

end Reader

end AlarmBridge.Json
