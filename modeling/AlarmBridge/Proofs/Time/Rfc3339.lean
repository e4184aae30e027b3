import AlarmBridge.Proofs.Json.Reading
import AlarmBridge.Proofs.Time.Calendar
import AlarmBridge.Proofs.Yields
import AlarmBridge.Time.Rfc3339

/-! Timestamps read and written.  What is read, in whatever spelling, is an instant with a year in
range whose leap second ends a minute (`Timestamp.Valid`), and the text written of such an instant
is read as the instant again. -/

set_option autoImplicit false

namespace AlarmBridge.Time

open Json (EndsDigits isDigit_of_mem_toDigits le_ofDigitChars)

/-- The year of the instant is in range, and a leap second follows the last second of a minute. -/
structure Timestamp.Valid (t : Timestamp) : Prop where
  year : Date.yearInRange t.date.year = true
  nanos : t.nanos < 1000000000 ∨ t.seconds % 60 = 59 ∧ t.nanos < 2000000000

/-! ## What is read -/

namespace Scan

theorem accumulate_eq_ok {ds : List Char} {n m : Nat} (h : accumulate n ds = .ok m) :
    m = Nat.ofDigitChars 10 ds n := by
  induction ds generalizing n with
  | nil =>
    cases h
    rfl
  | cons c ds ih =>
    rw [accumulate] at h
    split at h
    · cases h
    · rw [ih h, Nat.mul_comm]
      rfl

theorem ofDigitChars_lt {ds : List Char} (hds : ∀ c ∈ ds, c.isDigit = true) (n : Nat) :
    Nat.ofDigitChars 10 ds n < (n + 1) * Nat.pow 10 ds.length := by
  induction ds generalizing n with
  | nil => exact Nat.lt_of_lt_of_eq (Nat.lt_succ_self n) (Nat.mul_one _).symm
  | cons c ds ih =>
    have hdigit : c.toNat - '0'.toNat ≤ 9 := by
      have hc := hds c List.mem_cons_self
      simp only [Char.isDigit, ge_iff_le, UInt32.le_iff_toNat_le, Bool.and_eq_true,
        decide_eq_true_eq] at hc
      have hnine : c.toNat ≤ 57 := hc.2
      have hzero : '0'.toNat = 48 := rfl
      omega
    calc Nat.ofDigitChars 10 (c :: ds) n
        = Nat.ofDigitChars 10 ds (10 * n + (c.toNat - '0'.toNat)) := rfl
      _ < (10 * n + (c.toNat - '0'.toNat) + 1) * Nat.pow 10 ds.length :=
          ih (fun d hd => hds d (List.mem_cons_of_mem _ hd)) _
      _ ≤ (n + 1) * 10 * Nat.pow 10 ds.length := Nat.mul_le_mul_right _ (by omega)
      _ = (n + 1) * Nat.pow 10 (c :: ds).length := by
          rw [Nat.mul_assoc, Nat.mul_comm 10]
          rfl

/-- The digits that come next, as many as may be taken. -/
def nextDigits (most : Option Nat) (s : List Char) : List Char :=
  (match most with | some n => s.take n | none => s).takeWhile Char.isDigit

theorem run_get (s : List Char) : (get : Scan (List Char)).run s = .ok (s, s) := rfl

theorem run_set (s t : List Char) : (set s : Scan PUnit).run t = .ok ((), s) := rfl

theorem isDigit_of_mem_nextDigits {most : Option Nat} {s : List Char} {c : Char}
    (h : c ∈ nextDigits most s) : c.isDigit = true :=
  List.all_eq_true.mp List.all_takeWhile c h

theorem run_number_eq (most : Option Nat) (s : List Char) :
    (number most).run s =
      if s.isEmpty then .error .tooShort
      else if (nextDigits most s).isEmpty then .error .invalid
      else (accumulate 0 (nextDigits most s)).map fun n =>
        (n, s.drop (nextDigits most s).length) := by
  unfold number
  rw [run_bind_of_ok (run_get s)]
  show StateT.run
    (if s.isEmpty = true then _ else if (nextDigits most s).isEmpty = true then _ else _) s = _
  by_cases hs : s.isEmpty = true
  · rw [if_pos hs, if_pos hs]
    rfl
  · rw [if_neg hs, if_neg hs]
    by_cases hds : (nextDigits most s).isEmpty = true
    · rw [if_pos hds, if_pos hds]
      rfl
    · rw [if_neg hds, if_neg hds]
      show (accumulate 0 (nextDigits most s) >>= fun n => pure (n, _)) = _
      cases accumulate 0 (nextDigits most s) <;> rfl

theorem exists_of_run_number {most : Option Nat} {s t : List Char} {n : Nat}
    (h : (number most).run s = .ok (n, t)) :
    accumulate 0 (nextDigits most s) = .ok n ∧ t = s.drop (nextDigits most s).length := by
  rw [run_number_eq] at h
  split_ifs at h
  cases hread : accumulate 0 (nextDigits most s) with
  | error fault =>
    rw [hread] at h
    cases h
  | ok m =>
    rw [hread] at h
    cases h
    exact ⟨rfl, rfl⟩

theorem yields_bounded (lo hi : Nat) (most : Option Nat) :
    Yields (bounded lo hi most) fun n => lo ≤ n ∧ n ≤ hi := by
  refine .after fun n => ?_
  split
  · next h => exact .pure h
  · exact .throw _

theorem yields_field (lo hi : Nat) : Yields (field lo hi) fun n => lo ≤ n ∧ n ≤ hi :=
  .after fun _ => yields_bounded lo hi (some 2)

theorem yields_fraction : Yields fraction (· < 1000000000) := by
  refine .after fun s => ?_
  split
  · next s =>
    intro s' n t h
    obtain ⟨_, u, hset, h⟩ := exists_of_run_bind_ok h
    cases hset
    obtain ⟨m, u, hread, h⟩ := exists_of_run_bind_ok h
    obtain ⟨_, _, hmodify, h⟩ := exists_of_run_bind_ok h
    cases h
    obtain ⟨hvalue, -⟩ := exists_of_run_number hread
    obtain ⟨ds, hds⟩ : ∃ ds, ds = nextDigits (some 9) s := ⟨_, rfl⟩
    rw [← hds] at hvalue
    have hdigits : ∀ c ∈ ds, c.isDigit = true := by
      rw [hds]
      exact fun _ => isDigit_of_mem_nextDigits
    have hm : m < Nat.pow 10 ds.length := by
      rw [accumulate_eq_ok hvalue]
      exact Nat.lt_of_lt_of_eq (ofDigitChars_lt hdigits 0) (Nat.one_mul _)
    have hlength : ds.length ≤ 9 := by
      rw [hds]
      exact Nat.le_trans (List.takeWhile_sublist _).length_le (List.length_take_le _ _)
    show m * Nat.pow 10 (9 - ((s.take 9).takeWhile Char.isDigit).length) < _
    rw [show (s.take 9).takeWhile Char.isDigit = ds from hds.symm]
    calc m * Nat.pow 10 (9 - ds.length)
        < Nat.pow 10 ds.length * Nat.pow 10 (9 - ds.length) :=
          Nat.mul_lt_mul_of_pos_right hm (Nat.pow_pos (by decide))
      _ = Nat.pow 10 (ds.length + (9 - ds.length)) := (Nat.pow_add 10 _ _).symm
      _ = 1000000000 := by rw [Nat.add_sub_cancel' hlength]
  · exact .pure (by decide)

theorem yields_time :
    Yields time fun p => p.1 < 86400 ∧ (p.2 < 1000000000 ∨ p.1 % 60 = 59 ∧ p.2 < 2000000000) := by
  refine (yields_field 0 23).bind fun h hh => .after fun _ => ?_
  refine (yields_field 0 59).bind fun m hm => .after fun _ => ?_
  refine (yields_field 0 60).bind fun s hs => yields_fraction.bind fun nanos hnanos => ?_
  split
  · exact .pure (by simp only; omega)
  · exact .pure (by simp only; omega)

/-- Offsets are of whole minutes. -/
theorem yields_offset : Yields offset fun seconds => seconds % 60 = 0 := by
  refine .after fun s => ?_
  cases s with
  | nil => exact .throw _
  | cons c s =>
    simp only
    split
    · exact .after fun _ => .pure rfl
    · split
      · refine .after fun _ => .after fun h => .after fun _ => .after fun m => ?_
        split
        · exact .throw_bind _
        · exact .pure (by split <;> omega)
      · exact .throw _

theorem yields_zone : Yields zone fun seconds => seconds % 60 = 0 := by
  refine .after fun _ => .after fun s => ?_
  split
  · split
    · exact .after fun _ => .pure rfl
    · exact yields_offset
  · exact yields_offset

end Scan

theorem Timestamp.valid_of_ofLocal? {date : Date} {second nanos : Nat} {offset : Int}
    {t : Timestamp}
    (hsecond : second < 86400 ∧ (nanos < 1000000000 ∨ second % 60 = 59 ∧ nanos < 2000000000))
    (hoffset : offset % 60 = 0) (h : ofLocal? date second nanos offset = .ok t) : t.Valid := by
  unfold ofLocal? at h
  split at h
  · cases h
  split at h
  · cases h
  simp only at h
  split at h
  · next hyear =>
    cases h
    exact ⟨hyear, by simp only; omega⟩
  · cases h

theorem Timestamp.yields_read : Yields Timestamp.read Timestamp.Valid := by
  refine .after fun date => .after fun _ => Scan.yields_time.bind fun time htime => ?_
  refine Scan.yields_zone.bind fun offset hoffset => .after fun _ => ?_
  intro s t u hrun
  cases hlocal : ofLocal? date time.1 time.2 offset with
  | error fault =>
    rw [hlocal] at hrun
    cases hrun
  | ok t' =>
    rw [hlocal] at hrun
    cases hrun
    exact Timestamp.valid_of_ofLocal? htime hoffset hlocal

/-- What is read is a valid timestamp, however it is spelled. -/
theorem Timestamp.valid_of_ofText? {s : List Char} {t : Timestamp} (h : ofText? s = .ok t) :
    t.Valid := by
  unfold ofText? at h
  cases hrun : Timestamp.read.run s with
  | error fault =>
    rw [StateT.run'_eq, hrun] at h
    cases h
  | ok p =>
    rw [StateT.run'_eq, hrun] at h
    cases h
    exact yields_read s p.1 p.2 hrun

/-! ## What is written -/

theorem isDigit_of_mem_padded {width n : Nat} {c : Char} (h : c ∈ padded width n) :
    c.isDigit = true := by
  rcases List.mem_append.mp h with h | h
  · rw [List.eq_of_mem_replicate h]
    rfl
  · exact isDigit_of_mem_toDigits h

theorem ofDigitChars_padded (width n : Nat) : Nat.ofDigitChars 10 (padded width n) 0 = n := by
  unfold padded
  simp only
  rw [Nat.ofDigitChars_append, Nat.ofDigitChars_replicate_zero, Nat.mul_zero,
    Nat.ofDigitChars_toDigits (by decide) (by decide)]

theorem length_padded {width n : Nat} (hpos : 0 < width) (h : n < Nat.pow 10 width) :
    (padded width n).length = width := by
  have hlength := (Nat.length_toDigits_le_iff (by decide) hpos).mpr h
  unfold padded
  simp only [List.length_append, List.length_replicate]
  omega

theorem padded_eq_cons (width n : Nat) : ∃ c ds, padded width n = c :: ds ∧ c.isDigit = true := by
  cases hds : padded width n with
  | nil => exact absurd (List.append_eq_nil_iff.mp hds).2 Nat.toDigits_ne_nil
  | cons c ds => exact ⟨c, ds, rfl, isDigit_of_mem_padded (hds ▸ List.mem_cons_self)⟩

theorem isBlank_of_isDigit {c : Char} (h : c.isDigit = true) : Text.isBlank c = false := by
  simp only [Char.isDigit, ge_iff_le, UInt32.le_iff_toNat_le, Bool.and_eq_true,
    decide_eq_true_eq] at h
  have hzero : 48 ≤ c.toNat := h.1
  have hnine : c.toNat ≤ 57 := h.2
  simp only [Text.isBlank, Bool.or_eq_false_iff, Bool.and_eq_false_iff, decide_eq_false_iff_not]
  omega

namespace Scan

theorem accumulate_eq {ds : List Char} {n : Nat} (h : Nat.ofDigitChars 10 ds n ≤ maxNumber) :
    accumulate n ds = .ok (Nat.ofDigitChars 10 ds n) := by
  induction ds generalizing n with
  | nil => rfl
  | cons c ds ih =>
    have hnext : Nat.ofDigitChars 10 (c :: ds) n =
        Nat.ofDigitChars 10 ds (n * 10 + (c.toNat - '0'.toNat)) := by
      rw [Nat.mul_comm]
      rfl
    rw [hnext] at h ⊢
    have hfits : ¬maxNumber < n * 10 + (c.toNat - '0'.toNat) :=
      Nat.not_lt.mpr (Nat.le_trans (le_ofDigitChars ds _) h)
    rw [accumulate]
    simp only [hfits, if_false]
    exact ih h

theorem nextDigits_append {most : Option Nat} {ds t : List Char} (hds : ∀ c ∈ ds, c.isDigit = true)
    (ht : EndsDigits t) (hmost : ∀ k ∈ most, ds.length ≤ k) : nextDigits most (ds ++ t) = ds := by
  unfold nextDigits
  cases most with
  | none => rw [List.takeWhile_append_of_pos hds, ht.takeWhile_eq, List.append_nil]
  | some k =>
    have htake : EndsDigits (t.take (k - ds.length)) := by
      intro c hc
      rw [List.head?_take] at hc
      split at hc
      · cases hc
      · exact ht c hc
    simp only
    rw [List.take_append, List.take_of_length_le (hmost k rfl), List.takeWhile_append_of_pos hds,
      htake.takeWhile_eq, List.append_nil]

/-- A number that is written is read. -/
theorem run_number_padded {most : Option Nat} {width n : Nat} {t : List Char} (ht : EndsDigits t)
    (hmost : ∀ k ∈ most, (padded width n).length ≤ k) (hn : n ≤ maxNumber) :
    (number most).run (padded width n ++ t) = .ok (n, t) := by
  obtain ⟨c, ds, hds, -⟩ := padded_eq_cons width n
  have hnext := nextDigits_append (fun _ => isDigit_of_mem_padded) ht hmost
  have hvalue := accumulate_eq (ofDigitChars_padded width n ▸ hn)
  rw [ofDigitChars_padded] at hvalue
  rw [run_number_eq, hnext, hvalue, List.drop_left, hds]
  rfl

theorem run_blanks {c : Char} (hc : Text.isBlank c = false) (s : List Char) :
    blanks.run (c :: s) = .ok ((), c :: s) := by
  show Except.ok ((), (c :: s).dropWhile Text.isBlank) = _
  rw [List.dropWhile_cons_of_neg (by simp [hc])]

theorem run_separator {c : Char} (hc : Text.isBlank c = false) (s : List Char) :
    (separator c).run (c :: s) = .ok ((), s) := by
  unfold separator
  rw [run_bind_of_ok (run_blanks hc s), run_bind_of_ok (run_get _)]
  simp only [if_true]
  rfl

theorem run_field {lo hi n : Nat} {t : List Char} (ht : EndsDigits t) (hlo : lo ≤ n) (hhi : n ≤ hi)
    (hn : n < 100) : (field lo hi).run (padded 2 n ++ t) = .ok (n, t) := by
  obtain ⟨c, ds, hds, hc⟩ := padded_eq_cons 2 n
  have hblanks : blanks.run (padded 2 n ++ t) = .ok ((), padded 2 n ++ t) := by
    rw [hds]
    exact run_blanks (isBlank_of_isDigit hc) _
  have hlength : (padded 2 n).length = 2 := length_padded (by decide) hn
  have hmax : 100 ≤ maxNumber := by decide
  have hnumber : (number (some 2)).run (padded 2 n ++ t) = .ok (n, t) :=
    run_number_padded ht (by rintro k ⟨⟩; exact Nat.le_of_eq hlength) (by omega)
  unfold field
  rw [run_bind_of_ok hblanks]
  unfold bounded
  rw [run_bind_of_ok hnumber, if_pos ⟨hlo, hhi⟩]
  rfl

theorem endsDigits_cons {c : Char} (s : List Char) (h : c.isDigit = false) :
    EndsDigits (c :: s) := by
  rintro d ⟨⟩
  exact h

/-- A year of four digits. -/
theorem run_year_plain {n : Nat} {t : List Char} (hn : n < 10000) (ht : EndsDigits t) :
    year.run (padded 4 n ++ t) = .ok ((n : Int), t) := by
  obtain ⟨c, ds, hds, hc⟩ := padded_eq_cons 4 n
  have hlength : (padded 4 n).length = 4 := length_padded (by decide) hn
  have hmax : 10000 ≤ maxNumber := by decide
  have hnumber : (number (some 4)).run (padded 4 n ++ t) = .ok (n, t) :=
    run_number_padded ht (by rintro k ⟨⟩; exact Nat.le_of_eq hlength) (by omega)
  have hminus : c ≠ '-' := Json.ne_of_isDigit hc rfl
  have hplus : c ≠ '+' := Json.ne_of_isDigit hc rfl
  unfold year
  rw [hds, List.cons_append] at hnumber ⊢
  rw [run_bind_of_ok (run_blanks (isBlank_of_isDigit hc) _), run_bind_of_ok (run_get _)]
  simp only [hminus, hplus, List.cons.injEq, false_and, IsEmpty.forall_iff, implies_true]
  rw [StateT.run_map, hnumber]
  rfl

/-- A year after its sign. -/
theorem run_year_signed {n : Nat} {t : List Char} (hn : n < Nat.pow 2 31) (ht : EndsDigits t) :
    year.run ('-' :: (padded 4 n ++ t)) = .ok (-(n : Int), t) ∧
      year.run ('+' :: (padded 4 n ++ t)) = .ok ((n : Int), t) := by
  have hmax : Nat.pow 2 31 ≤ maxNumber := by decide
  have hnumber : (number none).run (padded 4 n ++ t) = .ok (n, t) :=
    run_number_padded ht (by rintro k ⟨⟩) (by omega)
  unfold year
  constructor
  · rw [run_bind_of_ok (run_blanks rfl _), run_bind_of_ok (run_get _)]
    show StateT.run (set _ >>= fun _ => number none >>= _) _ = _
    rw [run_bind_of_ok (run_set _ _), run_bind_of_ok hnumber, if_pos (Nat.le_of_lt hn)]
    rfl
  · rw [run_bind_of_ok (run_blanks rfl _), run_bind_of_ok (run_get _)]
    show StateT.run (set _ >>= fun _ => number none >>= _) _ = _
    rw [run_bind_of_ok (run_set _ _), run_bind_of_ok hnumber, if_pos hn]
    rfl

theorem run_year {y : Int} {t : List Char} (hy : Date.yearInRange y = true) (ht : EndsDigits t) :
    year.run (yearText y ++ t) = .ok (y, t) := by
  simp only [Date.yearInRange, Bool.and_eq_true, decide_eq_true_eq] at hy
  have hlarge : 262143 < Nat.pow 2 31 := by decide
  obtain ⟨hminus, hplus⟩ := run_year_signed (n := y.natAbs) (by omega) ht
  unfold yearText
  split_ifs with hshort hneg
  · rw [run_year_plain (by omega) ht, Int.toNat_of_nonneg hshort.1]
  · rw [List.cons_append, hminus]
    exact congrArg (fun n => Except.ok (n, t)) (by omega)
  · rw [List.cons_append, hplus]
    exact congrArg (fun n => Except.ok (n, t)) (by omega)

theorem run_date {d : Date} {t : List Char} (hd : d.exists? = true) (ht : EndsDigits t) :
    date.run (yearText d.year ++ '-' :: (padded 2 d.month ++ '-' :: (padded 2 d.day ++ t))) =
      .ok (d, t) := by
  simp only [Date.exists?, Bool.and_eq_true, decide_eq_true_eq] at hd
  obtain ⟨⟨⟨⟨hyear, hmonth⟩, hmonth'⟩, hday⟩, hday'⟩ := hd
  have hlength : Date.monthLength d.year d.month ≤ 31 := by
    unfold Date.monthLength
    split_ifs <;> omega
  unfold date
  rw [run_bind_of_ok (run_year hyear (endsDigits_cons _ rfl)), run_bind_of_ok (run_separator rfl _),
    run_bind_of_ok (run_field (endsDigits_cons _ rfl) hmonth hmonth' (by omega)),
    run_bind_of_ok (run_separator rfl _),
    run_bind_of_ok (run_field ht hday (by omega) (by omega))]
  rfl

/-- A fraction with digits for each of which there is a power of ten. -/
theorem run_fraction_digits {width n : Nat} {t : List Char} (ht : EndsDigits t) (hpos : 0 < width)
    (hwidth : width ≤ 9) (hn : n < Nat.pow 10 width) :
    fraction.run ('.' :: (padded width n ++ t)) = .ok (n * Nat.pow 10 (9 - width), t) := by
  have hlength : (padded width n).length = width := length_padded hpos hn
  have hfits : n ≤ maxNumber := by
    have hle : Nat.pow 10 width ≤ Nat.pow 10 9 := Nat.pow_le_pow_right (by decide) hwidth
    have hmax : Nat.pow 10 9 ≤ maxNumber := by decide
    omega
  have hmost : ∀ k ∈ some 9, (padded width n).length ≤ k := by
    rintro k ⟨⟩
    omega
  have hdigits : ((padded width n ++ t).take 9).takeWhile Char.isDigit = padded width n :=
    nextDigits_append (fun _ => isDigit_of_mem_padded) ht hmost
  unfold fraction
  rw [run_bind_of_ok (run_get _)]
  show StateT.run (set _ >>= fun _ => number (some 9) >>= _) _ = _
  rw [run_bind_of_ok (run_set _ _), run_bind_of_ok (run_number_padded ht hmost hfits)]
  show Except.ok
      (n * Nat.pow 10 (9 - (((padded width n ++ t).take 9).takeWhile Char.isDigit).length),
    t.dropWhile Char.isDigit) = _
  rw [hdigits, hlength, ht.dropWhile_eq]

theorem run_fraction {nanos : Nat} {c : Char} {t : List Char} (hnanos : nanos < 1000000000)
    (hc : c.isDigit = false ∧ c ≠ '.') :
    fraction.run (fractionText nanos ++ c :: t) = .ok (nanos, c :: t) := by
  have ht : EndsDigits (c :: t) := endsDigits_cons t hc.1
  unfold fractionText
  split_ifs with hzero hmillis hmicros
  · subst hzero
    unfold fraction
    rw [List.nil_append, run_bind_of_ok (run_get _)]
    simp only [hc.2, List.cons.injEq, false_and, IsEmpty.forall_iff, implies_true]
    rfl
  · have hn : nanos / 1000000 < Nat.pow 10 3 := show nanos / 1000000 < 1000 by omega
    rw [List.cons_append, run_fraction_digits ht (by decide) (by decide) hn]
    exact congrArg (fun n => Except.ok (n, c :: t))
      (show nanos / 1000000 * 1000000 = nanos by omega)
  · have hn : nanos / 1000 < Nat.pow 10 6 := show nanos / 1000 < 1000000 by omega
    rw [List.cons_append, run_fraction_digits ht (by decide) (by decide) hn]
    exact congrArg (fun n => Except.ok (n, c :: t)) (show nanos / 1000 * 1000 = nanos by omega)
  · rw [List.cons_append, run_fraction_digits ht (by decide) (by decide) hnanos]
    exact congrArg (fun n => Except.ok (n, c :: t)) (Nat.mul_one nanos)

/-- The time of a valid timestamp, a leap second as the second 60. -/
theorem run_time {ts : Timestamp} (h : ts.Valid) {c : Char} {t : List Char}
    (hc : c.isDigit = false ∧ c ≠ '.') :
    time.run (padded 2 (ts.secondOfDay / 3600) ++ ':' :: (padded 2 (ts.secondOfDay / 60 % 60) ++
      ':' :: (padded 2 (ts.secondOfDay % 60 + if ts.isLeap then 1 else 0) ++
        (fractionText (ts.nanos % 1000000000) ++ c :: t)))) =
      .ok ((ts.secondOfDay, ts.nanos), c :: t) := by
  have hday : ts.secondOfDay < 86400 := by
    unfold Timestamp.secondOfDay
    omega
  have hends : EndsDigits (fractionText (ts.nanos % 1000000000) ++ c :: t) := by
    unfold fractionText
    split_ifs
    · exact endsDigits_cons t hc.1
    all_goals exact endsDigits_cons _ rfl
  unfold time
  rw [run_bind_of_ok (run_field (endsDigits_cons _ rfl) (by omega) (by omega) (by omega)),
    run_bind_of_ok (run_separator rfl _),
    run_bind_of_ok (run_field (endsDigits_cons _ rfl) (by omega) (by omega) (by omega)),
    run_bind_of_ok (run_separator rfl _),
    run_bind_of_ok (run_field hends (by omega) (by split_ifs <;> omega) (by split_ifs <;> omega)),
    run_bind_of_ok (run_fraction (by omega) hc)]
  by_cases hleap : ts.isLeap = true
  · have hnanos : 1000000000 ≤ ts.nanos := of_decide_eq_true hleap
    obtain ⟨hlast, hlt⟩ := h.nanos.resolve_left (by omega)
    have hminute : ts.secondOfDay % 60 = 59 := by
      unfold Timestamp.secondOfDay
      omega
    rw [if_pos hleap, if_pos (by omega)]
    exact congrArg (fun p => Except.ok (p, c :: t))
      (Prod.ext (by simp only; omega) (by simp only; omega))
  · have hnanos : ¬1000000000 ≤ ts.nanos := fun hle => hleap (decide_eq_true hle)
    rw [if_neg hleap, if_neg (by omega)]
    exact congrArg (fun p => Except.ok (p, c :: t))
      (Prod.ext (by simp only; omega) (by simp only; omega))

theorem run_dateEnd (s : List Char) : dateEnd.run ('T' :: s) = .ok ((), s) := rfl

theorem run_zone : zone.run ['Z'] = .ok (0, []) := rfl

theorem run_finish : finish.run [] = .ok ((), []) := rfl

end Scan

/-- The text that is written of a valid timestamp is read as the timestamp. -/
theorem Timestamp.ofText?_text {t : Timestamp} (h : t.Valid) : ofText? (t.text ['Z']) = .ok t := by
  have hexists : t.date.exists? = true := Date.exists?_ofDays h.year
  have hdays : t.date.days = t.seconds / 86400 := Date.days_ofDays _
  have hlocal : ofLocal? t.date t.secondOfDay t.nanos 0 = .ok t := by
    have hseconds : t.date.days * 86400 + (t.secondOfDay : Int) - 0 = t.seconds := by
      rw [hdays]
      unfold secondOfDay
      omega
    unfold ofLocal?
    rw [if_neg (by simp [hexists]), if_neg (by decide)]
    simp only [hseconds]
    exact if_pos h.year
  unfold text secondText ofText? Timestamp.read
  simp only [List.append_assoc, List.cons_append]
  rw [StateT.run'_eq, run_bind_of_ok (Scan.run_date hexists (Scan.endsDigits_cons _ rfl)),
    run_bind_of_ok (Scan.run_dateEnd _), run_bind_of_ok (Scan.run_time h ⟨rfl, by decide⟩),
    run_bind_of_ok Scan.run_zone, run_bind_of_ok Scan.run_finish, hlocal]
  rfl

end AlarmBridge.Time
