import Mathlib.Tactic.ByContra
import Phrasebook.Instant

/-!
# Dates and days

The date of a day is one of the calendar, and counting days up to it gives the day
back. Both computations work in eras of 400 years that begin in March; a day is split
into its era, the year of that era and the day of that year. The days counted to a date are
those of the years and the months before it.

## Main definitions

* `Instant.dayNumber`: days counted through years and months from the year 1
-/
namespace Phrasebook.Instant

variable {era doe yoe doy : Int}

/-- The day of an era lies in the year that the computation finds. -/
theorem yearOfEra_spec (hnonneg : 0 ≤ doe) (hle : doe ≤ 146096)
    (hyoe : yoe = (doe - doe / 1460 + doe / 36524 - doe / 146096) / 365) :
    0 ≤ yoe ∧ yoe ≤ 399 ∧ 0 ≤ doe - (365 * yoe + yoe / 4 - yoe / 100) ∧
      doe - (365 * yoe + yoe / 4 - yoe / 100) ≤ 365 := by
  have hrange : 0 ≤ yoe ∧ yoe ≤ 399 := by omega
  refine ⟨hrange.1, hrange.2, ?_⟩
  -- Within a century of days and a century of years everything is linear.
  have hdays : doe / 36524 = 0 ∨ doe / 36524 = 1 ∨ doe / 36524 = 2 ∨ doe / 36524 = 3 ∨
      doe / 36524 = 4 := by omega
  have hyears : yoe / 100 = 0 ∨ yoe / 100 = 1 ∨ yoe / 100 = 2 ∨ yoe / 100 = 3 := by omega
  rcases hdays with hd | hd | hd | hd | hd <;> rcases hyears with hy | hy | hy | hy <;> omega

/-- A year of an era that has a day 365 ends with a leap day. -/
theorem yearOfEra_leap (hnonneg : 0 ≤ doe) (hle : doe ≤ 146096)
    (hyoe : yoe = (doe - doe / 1460 + doe / 36524 - doe / 146096) / 365)
    (hdoy : doe - (365 * yoe + yoe / 4 - yoe / 100) = 365) :
    yoe % 4 = 3 ∧ (yoe % 100 ≠ 99 ∨ yoe = 399) := by
  have hrange : 0 ≤ yoe ∧ yoe ≤ 399 := by omega
  have hyears : yoe / 100 = 0 ∨ yoe / 100 = 1 ∨ yoe / 100 = 2 ∨ yoe / 100 = 3 := by omega
  by_cases hlast : doe = 146096
  · subst hlast
    omega
  have hfour : yoe % 4 = 3 := by
    by_contra hne
    have hera : doe / 146096 = 0 := by omega
    have hcycles : doe / 1460 ≤ yoe / 4 := by
      rcases hyears with hy | hy | hy | hy <;> omega
    have hcentury : doe / 36524 = yoe / 100 := by
      rcases hyears with hy | hy | hy | hy <;> omega
    omega
  refine ⟨hfour, ?_⟩
  rcases hyears with hy | hy | hy | hy <;> omega

/-- Days are counted back from the month and the day of the month of a day of the
year. -/
theorem monthOfYear_spec {mp month : Int} (hnonneg : 0 ≤ doy) (hle : doy ≤ 365)
    (hmp : mp = (5 * doy + 2) / 153) (hmonth : month = if mp < 10 then mp + 3 else mp - 9) :
    0 ≤ mp ∧ mp ≤ 11 ∧ 1 ≤ month ∧ month ≤ 12 ∧ (month ≤ 2 ↔ 10 ≤ mp) ∧
      (if month ≤ 2 then month + 9 else month - 3) = mp ∧ 0 ≤ doy - (153 * mp + 2) / 5 := by
  have hrange : 0 ≤ mp ∧ mp ≤ 11 := by omega
  refine ⟨hrange.1, hrange.2, ?_⟩
  by_cases hearly : mp < 10
  · rw [if_pos hearly] at hmonth
    refine ⟨by omega, by omega, by omega, ?_, by omega⟩
    rw [if_neg (by omega)]
    omega
  · rw [if_neg hearly] at hmonth
    refine ⟨by omega, by omega, by omega, ?_, by omega⟩
    rw [if_pos (by omega)]
    omega

/-- No month is longer than the calendar allows. -/
theorem dayOfMonth_le {mp : Int} {year : Int} {month : Nat} (hnonneg : 0 ≤ doy) (hle : doy ≤ 365)
    (hmp : mp = (5 * doy + 2) / 153) (hmonth : (month : Int) = if mp < 10 then mp + 3 else mp - 9)
    (hleap : doy = 365 → isLeapYear year = true) :
    doy - (153 * mp + 2) / 5 + 1 ≤ daysInMonth year month := by
  have hmonths : (mp < 10 ∧ (month : Int) = mp + 3) ∨ (10 ≤ mp ∧ (month : Int) = mp - 9) := by
    by_cases hearly : mp < 10
    · exact .inl ⟨hearly, by rw [hmonth, if_pos hearly]⟩
    · exact .inr ⟨by omega, by rw [hmonth, if_neg hearly]⟩
  have hrange : 0 ≤ mp ∧ mp ≤ 11 := by omega
  obtain rfl | rfl | rfl | rfl | rfl | rfl | rfl | rfl | rfl | rfl | rfl | rfl :
      month = 1 ∨ month = 2 ∨ month = 3 ∨ month = 4 ∨ month = 5 ∨ month = 6 ∨ month = 7 ∨
        month = 8 ∨ month = 9 ∨ month = 10 ∨ month = 11 ∨ month = 12 := by omega
  case inr.inl =>
    -- February takes the days that the other months leave of the year.
    cases hyear : isLeapYear year with
    | true => simp only [daysInMonth, hyear, if_true]; omega
    | false =>
      have hshort : doy ≠ 365 := fun hlast => by simp [hleap hlast] at hyear
      simp only [daysInMonth, hyear, Bool.false_eq_true, if_false]
      omega
  all_goals
    simp only [daysInMonth]
    omega

/-- A year counted from January is a leap year if the March year before it is the one
that ends with a leap day. -/
theorem isLeapYear_of_yearOfEra (hleap : yoe % 4 = 3 ∧ (yoe % 100 ≠ 99 ∨ yoe = 399)) :
    isLeapYear (yoe + era * 400 + 1) = true := by
  simp only [isLeapYear, Bool.and_eq_true, Bool.or_eq_true, beq_iff_eq, bne_iff_ne, ne_eq]
  omega

theorem daysInMonth_le (year : Int) (month : Nat) : daysInMonth year month ≤ 31 := by
  unfold daysInMonth
  split <;> try decide
  split <;> decide

/-- The date of a day is a date of the calendar, and its days count up to the day. -/
theorem dateOfDays_spec (days : Int) : 1 ≤ (dateOfDays days).2.1 ∧ (dateOfDays days).2.1 ≤ 12 ∧
    1 ≤ (dateOfDays days).2.2 ∧
      (dateOfDays days).2.2 ≤ daysInMonth (dateOfDays days).1 (dateOfDays days).2.1 ∧
      daysOfDate (dateOfDays days).1 (dateOfDays days).2.1 (dateOfDays days).2.2 = days := by
  simp only [dateOfDays]
  have hdiv : (days + 719468).fdiv 146097 = (days + 719468) / 146097 :=
    Int.fdiv_eq_ediv_of_nonneg _ (by decide)
  rw [hdiv]
  generalize hera : (days + 719468) / 146097 = era
  generalize hdoe : days + 719468 - era * 146097 = doe
  have hdoe_nonneg : 0 ≤ doe := by omega
  have hdoe_le : doe ≤ 146096 := by omega
  generalize hyoe : (doe - doe / 1460 + doe / 36524 - doe / 146096) / 365 = yoe
  obtain ⟨hyoe_nonneg, hyoe_le, hdoy_nonneg, hdoy_le⟩ :=
    yearOfEra_spec hdoe_nonneg hdoe_le hyoe.symm
  have hleap := yearOfEra_leap hdoe_nonneg hdoe_le hyoe.symm
  generalize hdoy : doe - (365 * yoe + yoe / 4 - yoe / 100) = doy at *
  generalize hmp : (5 * doy + 2) / 153 = mp
  generalize hmonth : (if mp < 10 then mp + 3 else mp - 9).toNat = month
  have hmonth' : (month : Int) = if mp < 10 then mp + 3 else mp - 9 := by
    split at hmonth <;> rename_i h <;> simp only [h, if_true, if_false] <;> omega
  obtain ⟨hmp_nonneg, hmp_le, hone, htwelve, hearly, hback, hday⟩ :=
    monthOfYear_spec hdoy_nonneg hdoy_le hmp.symm hmonth'
  generalize hdayNat : (doy - (153 * mp + 2) / 5 + 1).toNat = day
  have hday' : (day : Int) = doy - (153 * mp + 2) / 5 + 1 := by omega
  refine ⟨by omega, by omega, by omega, ?_, ?_⟩
  · have hleapYear : doy = 365 →
        isLeapYear (yoe + era * 400 + if month ≤ 2 then 1 else 0) = true := by
      intro hlast
      rw [if_pos (by omega)]
      exact isLeapYear_of_yearOfEra (hleap hlast)
    have hlength := dayOfMonth_le hdoy_nonneg hdoy_le hmp.symm hmonth' hleapYear
    omega
  · have hyear : (if month ≤ 2 then (yoe + era * 400 + if month ≤ 2 then 1 else 0) - 1
        else yoe + era * 400 + if month ≤ 2 then 1 else 0) = yoe + era * 400 := by
      split <;> omega
    have hmarch : (if month ≤ 2 then (month : Int) + 9 else month - 3) = mp := by
      rw [← hback]
      split <;> split <;> omega
    have hyearDiv : (yoe + era * 400).fdiv 400 = era := by
      rw [Int.fdiv_eq_ediv_of_nonneg _ (by decide)]
      omega
    simp only [daysOfDate, hyear, hmarch, hyearDiv]
    have hyoeBack : yoe + era * 400 - era * 400 = yoe := by omega
    rw [hyoeBack]
    omega

/-! ## Days numbered through years and months -/

/-- Days of the years before a year, counted from the year 1. -/
def daysBeforeYear (year : Int) : Int :=
  (year - 1) * 365 + (year - 1) / 4 - (year - 1) / 100 + (year - 1) / 400

/-- Days of the months before a month of a year. -/
def daysBeforeMonth (year : Int) : Nat → Nat
  | 0 => 0
  | month + 1 => daysBeforeMonth year month + daysInMonth year month

/-- The number of a day, counted from the first day of the year 1. -/
def dayNumber (year : Int) (month day : Nat) : Int :=
  daysBeforeYear year + daysBeforeMonth year month + day

variable {year : Int} {month day : Nat}

theorem isLeapYear_iff :
    isLeapYear year = true ↔ year % 4 = 0 ∧ (year % 100 ≠ 0 ∨ year % 400 = 0) := by
  simp [isLeapYear]

/-- A year has 365 days, and a leap year one more. -/
theorem daysBeforeYear_succ (year : Int) :
    daysBeforeYear (year + 1) = daysBeforeYear year + if isLeapYear year then 366 else 365 := by
  unfold daysBeforeYear
  simp only [isLeapYear_iff]
  split <;> omega

theorem month_of_day (hday : 1 ≤ day) (hle : day ≤ daysInMonth year month) :
    1 ≤ month ∧ month ≤ 12 := by
  unfold daysInMonth at hle
  split at hle <;> omega

theorem daysBeforeMonth_early (hmonth : 1 ≤ month) (hlast : month ≤ 2) :
    daysBeforeMonth year month = 31 * (month - 1) := by
  obtain rfl | rfl : month = 1 ∨ month = 2 := by omega
  · rfl
  · rfl

/-- From March on, the months before a month are spread evenly, five of them to 153 days. -/
theorem daysBeforeMonth_late (hmonth : 3 ≤ month) (hlast : month ≤ 12) :
    daysBeforeMonth year month =
      (153 * (month - 3) + 2) / 5 + if isLeapYear year then 60 else 59 := by
  obtain rfl | rfl | rfl | rfl | rfl | rfl | rfl | rfl | rfl | rfl :
      month = 3 ∨ month = 4 ∨ month = 5 ∨ month = 6 ∨ month = 7 ∨ month = 8 ∨ month = 9 ∨
        month = 10 ∨ month = 11 ∨ month = 12 := by omega
  all_goals
    simp only [daysBeforeMonth, daysInMonth]
    split <;> rfl

/-- Days are counted from 1970 as they are numbered from the year 1. -/
theorem daysOfDate_eq (hmonth : 1 ≤ month) (hlast : month ≤ 12) (day : Nat) :
    daysOfDate year month day = dayNumber year month day - 719163 := by
  have hfdiv : ∀ y : Int, y.fdiv 400 = y / 400 :=
    fun y => Int.fdiv_eq_ediv_of_nonneg y (by decide)
  have hleap : isLeapYear year = true ↔ year % 4 = 0 ∧ (year % 100 ≠ 0 ∨ year % 400 = 0) :=
    isLeapYear_iff
  unfold daysOfDate dayNumber daysBeforeYear
  simp only [hfdiv]
  by_cases hearly : month ≤ 2
  · rw [daysBeforeMonth_early hmonth hearly]
    simp only [if_pos hearly]
    omega
  · rw [daysBeforeMonth_late (by omega) hlast]
    simp only [if_neg hearly]
    split
    · next hyear =>
      have hlong := hleap.mp hyear
      omega
    · next hyear =>
      have hshort := mt hleap.mpr hyear
      omega

end Phrasebook.Instant
