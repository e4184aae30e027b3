import AlarmBridge.Time.Date
import Mathlib.Tactic.IntervalCases
import Mathlib.Tactic.SplitIfs

/-! Days and dates.  An era is 400 years that begin in March; the count of days in it falls apart
into centuries, spans of four years, years and days.  Every day is that of a date, the date counts
back to the day, and it exists if its year is in range. -/

set_option autoImplicit false

namespace AlarmBridge.Time.Date

/-- A day of a year that begins in March, as a date. -/
def ofMarch (era : Int) (year day : Nat) : Date :=
  let m := (5 * day + 2) / 153
  let month := if m < 10 then m + 3 else m - 9
  ⟨era * 400 + year + (if month ≤ 2 then 1 else 0), month, day - (153 * m + 2) / 5 + 1⟩

/-- The days of an era before one of its years. -/
def daysBefore (year : Nat) : Nat := year * 365 + year / 4 - year / 100

/-- A year of an era has a day: the last of 366 only if it ends in a February of 29 days. -/
def HasDay (year day : Nat) : Prop :=
  year < 400 ∧
    (day < 365 ∨ day = 365 ∧ (year + 1) % 4 = 0 ∧ ((year + 1) % 100 ≠ 0 ∨ year + 1 = 400))

/-- A day of an era lies in a century, a span of four years and a year. -/
theorem exists_parts {n : Nat} (h : n < 146097) :
    ∃ century span year day, century < 4 ∧ span < 25 ∧ year < 4 ∧
      n = 36524 * century + (1461 * span + (365 * year + day)) ∧
      (day < 365 ∨ day = 365 ∧ year = 3 ∧ (span < 24 ∨ century = 3)) := by
  -- the last day of an era is the 366th of its last year, and still in the fourth century
  obtain ⟨century, hcentury⟩ : ∃ century, century = min (n / 36524) 3 := ⟨_, rfl⟩
  obtain ⟨r, hr⟩ : ∃ r, n = 36524 * century + r := ⟨n - 36524 * century, by omega⟩
  have hrle : r < 36524 ∨ r = 36524 ∧ century = 3 := by omega
  obtain ⟨span, hspan⟩ : ∃ span, span = r / 1461 := ⟨_, rfl⟩
  obtain ⟨q, hq⟩ : ∃ q, r = 1461 * span + q := ⟨r - 1461 * span, by omega⟩
  obtain ⟨year, hyear⟩ : ∃ year, year = min (q / 365) 3 := ⟨_, rfl⟩
  exact ⟨century, span, year, q - 365 * year, by omega, by omega, by omega, by omega, by omega⟩

/-- The last day of an era alone counts to a fifth century. -/
theorem div_century {century r : Nat} (h : r < 36524 ∨ r = 36524 ∧ century = 3)
    (hlt : century < 4) :
    (36524 * century + r) / 36524 = century + (36524 * century + r) / 146096 := by
  rcases h with h | ⟨rfl, rfl⟩
  · rw [Nat.div_eq_of_lt (show 36524 * century + r < 146096 by omega)]
    omega
  · rfl

/-- The quotient by 1460 runs ahead of the spans of four years on the last days of some of them. -/
theorem exists_div_span {century span q : Nat} (hcentury : century < 4) (hspan : span < 25)
    (hq : q < 1461) :
    ∃ ahead, (36524 * century + (1461 * span + q)) / 1460 = 25 * century + span + ahead ∧
      (ahead = 0 ∧ q < 1460 ∨ ahead = 1 ∧ 1096 < q) := by
  by_cases hlast : 24 * century + span + q < 1460
  · exact ⟨0, by omega, .inl ⟨rfl, by omega⟩⟩
  · exact ⟨1, by omega, .inr ⟨rfl, by omega⟩⟩

/-- The year of an era that has a day, as `ofDays` computes it. -/
theorem exists_hasDay {n : Nat} (h : n < 146097) :
    ∃ year day, HasDay year day ∧ n = daysBefore year + day ∧
      (n - n / 1460 + n / 36524 - n / 146096) / 365 = year := by
  obtain ⟨century, span, y, day, hcentury, hspan, hy, rfl, hday⟩ := exists_parts h
  obtain ⟨year, hyear⟩ : ∃ year, year = 100 * century + 4 * span + y := ⟨_, rfl⟩
  have hfour : year / 4 = 25 * century + span := by omega
  have hhundred : year / 100 = century := by omega
  have hbefore : daysBefore year = 36524 * century + (1461 * span + 365 * y) := by
    rw [daysBefore, hfour, hhundred]
    omega
  obtain ⟨ahead, hspans, hahead⟩ := exists_div_span hcentury hspan (q := 365 * y + day) (by omega)
  have hwithin : 1461 * span + (365 * y + day) < 36524 ∨
      1461 * span + (365 * y + day) = 36524 ∧ century = 3 := by
    rcases hday with hday | ⟨hday, hthird, hlast | hlast⟩
    · exact .inl (by omega)
    · exact .inl (by omega)
    · omega
  refine ⟨year, day, ⟨by omega, ?_⟩, by omega, ?_⟩
  · rcases hday with hday | ⟨hday, rfl, hlast⟩
    · exact .inl hday
    · exact .inr ⟨hday, by omega, by omega⟩
  · have hrest : ahead ≤ day ∧ day - ahead < 365 := by
      rcases hahead with ⟨rfl, hq⟩ | ⟨rfl, hq⟩
      · omega
      · omega
    have hcount (last : Nat) : 36524 * century + (1461 * span + (365 * y + day)) -
        (25 * century + span + ahead) + (century + last) - last = day - ahead + 365 * year := by
      omega
    rw [div_century hwithin hcentury, hspans, hcount, Nat.add_mul_div_left _ _ (by decide),
      Nat.div_eq_of_lt hrest.2, Nat.zero_add]

/-- The date of a day is a day of a year of an era. -/
theorem exists_ofDays_eq (n : Int) :
    ∃ era year day, HasDay year day ∧ n = era * 146097 + (daysBefore year + day : Nat) - 719468 ∧
      ofDays n = ofMarch era year day := by
  obtain ⟨era, hera⟩ : ∃ era, era = (n + 719468) / 146097 := ⟨_, rfl⟩
  obtain ⟨d, hd⟩ : ∃ d : Nat, d = ((n + 719468) % 146097).toNat := ⟨_, rfl⟩
  obtain ⟨year, day, hday, hparts, hyear⟩ := exists_hasDay (n := d) (by omega)
  have hdate : ofDays n = ofMarch era year (d - (365 * year + year / 4 - year / 100)) := by
    subst hera hd hyear
    rfl
  have hrest : d - (365 * year + year / 4 - year / 100) = day := by
    rw [hparts]
    unfold daysBefore
    omega
  exact ⟨era, year, day, hday, by omega, hrest ▸ hdate⟩

theorem days_ofMarch (era : Int) {year day : Nat} (h : HasDay year day) :
    (ofMarch era year day).days = era * 146097 + (daysBefore year + day : Nat) - 719468 := by
  obtain ⟨hyear, hday⟩ := h
  obtain ⟨m, hm⟩ : ∃ m, m = (5 * day + 2) / 153 := ⟨_, rfl⟩
  have hstart : (153 * m + 2) / 5 ≤ day := by omega
  unfold days ofMarch daysBefore
  simp only [← hm]
  split_ifs with hlate hafter hafter
  · omega
  · have hmonth : (m + 3 + 9) % 12 = m := by omega
    have hera : (era * 400 + (year : Int) + 0) / 400 = era := by omega
    have hyear' : ((era * 400 + (year : Int) + 0) % 400).toNat = year := by omega
    rw [hmonth, hera, hyear']
    omega
  · have hmonth : (m - 9 + 9) % 12 = m := by omega
    have hera : (era * 400 + (year : Int) + 1 - 1) / 400 = era := by omega
    have hyear' : ((era * 400 + (year : Int) + 1 - 1) % 400).toNat = year := by omega
    rw [hmonth, hera, hyear']
    omega
  · omega

/-- The months from March to January are as long as the days between their starts. -/
theorem monthLength_eq (y : Int) {m : Nat} (h : m < 11) :
    monthLength y (if m < 10 then m + 3 else m - 9) =
      (153 * (m + 1) + 2) / 5 - (153 * m + 2) / 5 := by
  interval_cases m <;> rfl

theorem isLeapYear_ofMarch (era : Int) {year : Nat} (h : (year + 1) % 4 = 0)
    (h' : (year + 1) % 100 ≠ 0 ∨ year + 1 = 400) : isLeapYear (era * 400 + year + 1) = true := by
  simp only [isLeapYear, Bool.and_eq_true, Bool.or_eq_true, decide_eq_true_eq]
  omega

theorem within_ofMarch (era : Int) {year day : Nat} (h : HasDay year day) :
    1 ≤ (ofMarch era year day).month ∧ (ofMarch era year day).month ≤ 12 ∧
      1 ≤ (ofMarch era year day).day ∧
      (ofMarch era year day).day ≤
        monthLength (ofMarch era year day).year (ofMarch era year day).month := by
  obtain ⟨hyear, hday⟩ := h
  obtain ⟨m, hm⟩ : ∃ m, m = (5 * day + 2) / 153 := ⟨_, rfl⟩
  have hlt : m < 12 := by omega
  unfold ofMarch
  simp only [← hm]
  refine ⟨by split_ifs <;> omega, by split_ifs <;> omega, Nat.succ_pos _, ?_⟩
  by_cases hfebruary : m < 11
  · rw [monthLength_eq _ hfebruary]
    omega
  · obtain rfl : m = 11 := by omega
    by_cases hlast : day < 365
    · have hlength : 28 ≤ monthLength (era * 400 + year + 1) 2 := by
        simp only [monthLength, if_true]
        split_ifs <;> omega
      exact Nat.le_trans (by omega) hlength
    · obtain ⟨-, hfour, hhundred⟩ := hday.resolve_left hlast
      have hlength : monthLength (era * 400 + year + 1) 2 = 29 := by
        simp only [monthLength, if_true, isLeapYear_ofMarch era hfour hhundred]
      exact Nat.le_trans (by omega) (Nat.le_of_eq hlength.symm)

/-- The date of a day counts back to the day. -/
theorem days_ofDays (n : Int) : (ofDays n).days = n := by
  obtain ⟨era, year, day, hday, hn, heq⟩ := exists_ofDays_eq n
  rw [heq, days_ofMarch era hday]
  exact hn.symm

/-- The date of a day exists if its year is in range. -/
theorem exists?_ofDays {n : Int} (h : yearInRange (ofDays n).year = true) :
    (ofDays n).exists? = true := by
  obtain ⟨era, year, day, hday, -, heq⟩ := exists_ofDays_eq n
  obtain ⟨hmonth, hmonth', hfirst, hlast⟩ := within_ofMarch era hday
  rw [heq] at h ⊢
  simp only [exists?, h, hmonth, hmonth', hfirst, hlast, decide_true, Bool.and_self]

end AlarmBridge.Time.Date
