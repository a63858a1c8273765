import Mathlib.Data.Int.Notation
import Mathlib.Data.List.Basic
import Mathlib.Order.Monotone.Basic
import Mathlib.Tactic.IntervalCases

namespace GlancesRs.Data

/-! The proleptic Gregorian calendar, counted year by year and month by month,
and the 400-year cycle that converts a day number into a date. -/

def isLeap (year : ℕ) : Bool := year % 4 = 0 && (year % 100 ≠ 0 || year % 400 = 0)

def monthLength (year month : ℕ) : ℕ :=
  match month with
  | 1 | 3 | 5 | 7 | 8 | 10 | 12 => 31
  | 4 | 6 | 9 | 11 => 30
  | 2 => if isLeap year then 29 else 28
  | _ => 0

def yearLength (year : ℕ) : ℕ := if isLeap year then 366 else 365

/-- Days from the first of January of the year 0. -/
def daysBeforeYear : ℕ → ℕ
  | 0 => 0
  | year + 1 => daysBeforeYear year + yearLength year

/-- Days of the year before a month, for months from 1 on. -/
def daysBeforeMonth (year : ℕ) : ℕ → ℕ
  | 0 => 0
  | month + 1 => daysBeforeMonth year month + monthLength year month

@[ext] structure Date where
  year : ℕ
  month : ℕ
  day : ℕ
  month_valid : 1 ≤ month ∧ month ≤ 12
  day_valid : 1 ≤ day ∧ day ≤ monthLength year month

namespace Date

variable (date : Date)

/-- Days since the first of January of the year 0. -/
def days : ℕ := daysBeforeYear date.year + daysBeforeMonth date.year date.month + (date.day - 1)

end Date

section Counting

variable {year month : ℕ}

theorem daysBeforeYear_succ :
    daysBeforeYear (year + 1) = 365 * year + year / 4 - year / 100 + year / 400 + 366 := by
  induction year with
  | zero => rfl
  | succ year ih =>
      rw [daysBeforeYear, ih, yearLength, isLeap]
      have four : (year + 1) / 4 = year / 4 + if (year + 1) % 4 = 0 then 1 else 0 := by
        split <;> omega
      have hundred : (year + 1) / 100 = year / 100 + if (year + 1) % 100 = 0 then 1 else 0 := by
        split <;> omega
      have fourHundred : (year + 1) / 400 = year / 400 + if (year + 1) % 400 = 0 then 1 else 0 := by
        split <;> omega
      have nested : (year + 1) % 400 = 0 → (year + 1) % 100 = 0 := by omega
      have aligned : (year + 1) % 100 = 0 → (year + 1) % 4 = 0 := by omega
      rw [four, hundred, fourHundred]
      by_cases leap : (year + 1) % 4 = 0
      · by_cases century : (year + 1) % 100 = 0
        · by_cases cycle : (year + 1) % 400 = 0
          · simp [leap, century, cycle]
            omega
          · simp [leap, century, cycle]
            omega
        · have apart : ¬ (year + 1) % 400 = 0 := fun cycle => century (nested cycle)
          simp [leap, century, apart]
          omega
      · have ordinary : ¬ (year + 1) % 100 = 0 := fun century => leap (aligned century)
        have apart : ¬ (year + 1) % 400 = 0 := fun cycle => ordinary (nested cycle)
        simp [leap, ordinary, apart]
        omega

theorem monthLength_le : monthLength year month ≤ 31 := by
  unfold monthLength
  repeat' split
  all_goals omega

theorem daysBeforeYear_mono : Monotone daysBeforeYear :=
  monotone_nat_of_le_succ fun _ => Nat.le_add_right _ _

theorem daysBeforeMonth_mono : Monotone (daysBeforeMonth year) :=
  monotone_nat_of_le_succ fun _ => Nat.le_add_right _ _

theorem daysBeforeMonth_year : daysBeforeMonth year 13 = yearLength year := by
  simp only [daysBeforeMonth, monthLength, yearLength]
  split <;> rfl

end Counting

namespace Date

variable {date later : Date}

theorem days_lt_next_month : date.days < daysBeforeYear date.year +
    daysBeforeMonth date.year (date.month + 1) := by
  have valid := date.day_valid
  rw [days, daysBeforeMonth]
  omega

theorem days_lt_next_year : date.days < daysBeforeYear (date.year + 1) := by
  have months : daysBeforeMonth date.year (date.month + 1) ≤ daysBeforeMonth date.year 13 :=
    daysBeforeMonth_mono (by have valid := date.month_valid; omega)
  have inside := @days_lt_next_month date
  rw [daysBeforeMonth_year] at months
  rw [daysBeforeYear]
  omega

/-- By year, month and day. -/
def Before (date later : Date) : Prop :=
  date.year < later.year ∨ date.year = later.year ∧
    (date.month < later.month ∨ date.month = later.month ∧ date.day < later.day)

theorem Before.days_lt (before : date.Before later) : date.days < later.days := by
  have dayValid := date.day_valid
  rcases before with years | ⟨year, months | ⟨month, days_⟩⟩
  · have passed : daysBeforeYear (date.year + 1) ≤ daysBeforeYear later.year :=
      daysBeforeYear_mono years
    have inside := @days_lt_next_year date
    have started : daysBeforeYear later.year ≤ later.days := by
      rw [days]
      omega
    omega
  · have passed : daysBeforeMonth date.year (date.month + 1) ≤
        daysBeforeMonth date.year later.month :=
      daysBeforeMonth_mono months
    have inside := @days_lt_next_month date
    have started : daysBeforeYear date.year + daysBeforeMonth date.year later.month ≤ later.days := by
      rw [days, year]
      omega
    omega
  · rw [days, days, year, month]
    omega

theorem before_or_eq_or_after : date.Before later ∨ date = later ∨ later.Before date := by
  rw [Date.ext_iff, Before, Before]
  omega

theorem days_lt_iff : date.days < later.days ↔ date.Before later := by
  constructor
  · intro less
    rcases @before_or_eq_or_after date later with before | rfl | after
    · exact before
    · exact absurd less (Nat.lt_irrefl _)
    · exact absurd less (Nat.lt_asymm after.days_lt)
  · exact Before.days_lt

theorem days_inj (same : date.days = later.days) : date = later := by
  rcases @before_or_eq_or_after date later with before | equal | after
  · exact absurd same (Nat.ne_of_lt before.days_lt)
  · exact equal
  · exact absurd same.symm (Nat.ne_of_lt after.days_lt)

end Date

section Conversion

/-! A cycle of 400 years starts on the first of March, so that a leap day ends
its year. -/

def daysInCycle : ℕ := 146097

def yearOfEra (doe : ℕ) : ℕ := (doe - doe / 1460 + doe / 36524 - doe / 146096) / 365

/-- Days of the cycle before one of its years. -/
def daysBeforeYearOfEra (yoe : ℕ) : ℕ := 365 * yoe + yoe / 4 - yoe / 100

/-- The year that ends in the cycle's year `yoe` has a leap day. -/
def EndsLeap (yoe : ℕ) : Prop := (yoe + 1) % 4 = 0 ∧ ((yoe + 1) % 100 ≠ 0 ∨ (yoe + 1) % 400 = 0)

/-- A day of the cycle, by the century, the group of four years and the year in it. -/
theorem yearOfEra_of_parts {century four one day doe : ℕ} (centuries : century < 4) (fours : four < 25)
    (ones : one < 4) (days : day ≤ 365) (leap : day = 365 → one = 3 ∧ (four = 24 → century = 3))
    (counted : doe = 36524 * century + 1461 * four + 365 * one + day) :
    yearOfEra doe = 100 * century + 4 * four + one := by
  generalize surplus : (24 * century + four + 365 * one + day) / 1460 = extra
  generalize ended : doe / 146096 = last
  -- a day is taken back for each group of four years and given for each century
  have groups : doe / 1460 = 25 * century + four + extra := by omega
  have hundreds : doe / 36524 = century + last := by
    by_cases final : doe = 146096
    · omega
    · have short : 1461 * four + 365 * one + day < 36524 := by omega
      omega
  have taken : extra ≤ day ∧ day - extra < 365 := by
    have single : extra ≤ 1 := by omega
    by_cases full : day = 365
    · omega
    · by_cases fourth : one = 3
      · omega
      · omega
  have days365 : doe - (25 * century + four + extra) + (century + last) - last =
      365 * (100 * century + 4 * four + one) + (day - extra) := by
    clear surplus ended groups hundreds
    omega
  rw [yearOfEra, groups, hundreds, ended, days365, Nat.mul_add_div (by decide),
    Nat.div_eq_of_lt taken.2, Nat.add_zero]

theorem exists_dayOfYear {doe : ℕ} (inside : doe < daysInCycle) :
    ∃ doy, yearOfEra doe < 400 ∧ doe = daysBeforeYearOfEra (yearOfEra doe) + doy ∧ doy ≤ 365 ∧
      (doy = 365 → EndsLeap (yearOfEra doe)) := by
  unfold daysInCycle at inside
  obtain ⟨century, centuryDay, counted, centuries, last⟩ : ∃ century centuryDay,
      doe = 36524 * century + centuryDay ∧ century < 4 ∧
        (centuryDay < 36524 ∨ centuryDay = 36524 ∧ century = 3) := by
    by_cases final : doe = 146096
    · exact ⟨3, 36524, by omega, by omega, by omega⟩
    · exact ⟨doe / 36524, doe % 36524, by omega, by omega, by omega⟩
  obtain ⟨four, fourDay, split, fours⟩ : ∃ four fourDay,
      centuryDay = 1461 * four + fourDay ∧ fourDay < 1461 :=
    ⟨centuryDay / 1461, centuryDay % 1461, by omega, by omega⟩
  obtain ⟨one, day, divided, ones, days, leap⟩ : ∃ one day, fourDay = 365 * one + day ∧ one < 4 ∧
      day ≤ 365 ∧ (day = 365 → one = 3) := by
    by_cases final : fourDay = 1460
    · exact ⟨3, 365, by omega, by omega, by omega, by omega⟩
    · exact ⟨fourDay / 365, fourDay % 365, by omega, by omega, by omega, by omega⟩
  have inCentury : four < 25 := by omega
  have closing : day = 365 → one = 3 ∧ (four = 24 → century = 3) := by omega
  have year := @yearOfEra_of_parts century four one day doe centuries inCentury ones days closing (by omega)
  have leapDays : (100 * century + 4 * four + one) / 4 = 25 * century + four := by omega
  have hundreds : (100 * century + 4 * four + one) / 100 = century := by omega
  refine ⟨day, by omega, ?_, days, fun full => ?_⟩
  · rw [year, daysBeforeYearOfEra, leapDays, hundreds]
    omega
  · rw [year, EndsLeap]
    obtain ⟨fourth, thirdCentury⟩ := closing full
    constructor
    · omega
    · by_cases cycle : four = 24
      · have last := thirdCentury cycle
        omega
      · omega

/-- Months of a year that starts on the first of March, from 0 on. -/
def monthOfYear (doy : ℕ) : ℕ := (5 * doy + 2) / 153

def daysBeforeMonthOfYear (mp : ℕ) : ℕ := (153 * mp + 2) / 5

def civilMonth (mp : ℕ) : ℕ := if mp < 10 then mp + 3 else mp - 9

def civilYear (year month : ℕ) : ℕ := if month ≤ 2 then year + 1 else year

theorem monthOfYear_bounds {doy : ℕ} : daysBeforeMonthOfYear (monthOfYear doy) ≤ doy ∧
    doy < daysBeforeMonthOfYear (monthOfYear doy + 1) := by
  unfold daysBeforeMonthOfYear monthOfYear
  omega

theorem monthLength_of_march {year mp : ℕ} (early : mp < 10) :
    daysBeforeMonthOfYear mp + monthLength year (mp + 3) = daysBeforeMonthOfYear (mp + 1) := by
  interval_cases mp <;> rfl

theorem daysBeforeYear_succ_leap {year : ℕ} :
    daysBeforeYear (year + 1) = daysBeforeYear year + 337 + monthLength year 2 := by
  rw [daysBeforeYear, yearLength, monthLength]
  split <;> rfl

theorem daysBeforeMonth_of_march {year mp : ℕ} (early : mp < 10) :
    daysBeforeMonth year (mp + 3) = 31 + monthLength year 2 + daysBeforeMonthOfYear mp := by
  induction mp with
  | zero => simp [daysBeforeMonth, monthLength, daysBeforeMonthOfYear]
  | succ mp ih =>
      have before := @monthLength_of_march year mp (by omega)
      have counted := ih (by omega)
      rw [Nat.add_right_comm, daysBeforeMonth, counted]
      omega

/-- A day of the year that starts on the first of March of `year`. -/
theorem exists_marchDate {year doy : ℕ} (inside : doy ≤ 365)
    (leap : doy = 365 → isLeap (year + 1) = true) :
    ∃ date : Date, date.month = civilMonth (monthOfYear doy) ∧
      date.year = civilYear year date.month ∧
      date.day = doy - daysBeforeMonthOfYear (monthOfYear doy) + 1 ∧
      date.days + 306 = daysBeforeYear (year + 1) + doy := by
  obtain ⟨first, last⟩ := @monthOfYear_bounds doy
  have twelve : monthOfYear doy < 12 := by
    unfold monthOfYear
    omega
  generalize monthOfYear doy = mp at *
  by_cases early : mp < 10
  · have length := @monthLength_of_march year mp early
    refine ⟨⟨year, mp + 3, doy - daysBeforeMonthOfYear mp + 1, by omega, by omega⟩, ?_, ?_, rfl, ?_⟩
    · rw [civilMonth, if_pos early]
    · show year = civilYear year (mp + 3)
      rw [civilYear, if_neg (by omega)]
    · simp only [Date.days]
      rw [daysBeforeMonth_of_march early, daysBeforeYear_succ_leap]
      omega
  · obtain rfl | rfl : mp = 10 ∨ mp = 11 := by omega
    · refine ⟨⟨year + 1, 1, doy - 306 + 1, by decide, ?_⟩, rfl, rfl, rfl, ?_⟩
      · rw [daysBeforeMonthOfYear] at first last
        rw [monthLength]
        omega
      · simp only [Date.days, daysBeforeMonth, monthLength]
        rw [daysBeforeMonthOfYear] at first
        omega
    · refine ⟨⟨year + 1, 2, doy - 337 + 1, by decide, ?_⟩, rfl, rfl, rfl, ?_⟩
      · rw [daysBeforeMonthOfYear] at first
        rw [monthLength]
        split
        · omega
        · rename_i ordinary
          have notLast : doy ≠ 365 := fun full => ordinary (leap full)
          omega
      · simp only [Date.days, daysBeforeMonth, monthLength]
        rw [daysBeforeMonthOfYear] at first
        omega

theorem isLeap_of_endsLeap {era yoe : ℕ} (ends : EndsLeap yoe) :
    isLeap (yoe + era * 400 + 1) = true := by
  obtain ⟨four, century⟩ := ends
  simp only [isLeap, Bool.and_eq_true, Bool.or_eq_true, decide_eq_true_eq]
  omega

/-- The date of a day counted from the first of March of the year 0. -/
theorem exists_date (z : ℕ) : ∃ date : Date,
    let doe := z % daysInCycle
    let doy := doe - daysBeforeYearOfEra (yearOfEra doe)
    date.month = civilMonth (monthOfYear doy) ∧
      date.year = civilYear (yearOfEra doe + z / daysInCycle * 400) date.month ∧
      date.day = doy - daysBeforeMonthOfYear (monthOfYear doy) + 1 ∧ date.days = z + 60 := by
  obtain ⟨doy, years, counted, inside, leap⟩ :=
    @exists_dayOfYear (z % daysInCycle) (Nat.mod_lt z (by decide))
  have same : z % daysInCycle - daysBeforeYearOfEra (yearOfEra (z % daysInCycle)) = doy := by omega
  obtain ⟨date, month, year, day, days⟩ := exists_marchDate inside
    fun full => isLeap_of_endsLeap (leap full)
  simp only [same]
  refine ⟨date, month, year, day, ?_⟩
  rw [daysBeforeYear_succ] at days
  rw [daysBeforeYearOfEra] at counted
  have whole := Nat.div_add_mod z daysInCycle
  rw [daysInCycle] at *
  generalize yearOfEra (z % 146097) = yoe at *
  generalize z / 146097 = era at *
  have fours : (yoe + era * 400) / 4 = yoe / 4 + era * 100 := by omega
  have hundreds : (yoe + era * 400) / 100 = yoe / 100 + era * 4 := by omega
  have cycles : (yoe + era * 400) / 400 = era := by omega
  rw [fours, hundreds, cycles] at days
  omega

end Conversion

end GlancesRs.Data
