import GlancesRs.Data.Civil
import GlancesRs.Data.Decimal

namespace GlancesRs.Data

/-! A date with a time of day, its text in ISO 8601, and the order they share. -/

structure DateTime where
  date : Date
  hour : ℕ
  minute : ℕ
  second : ℕ
  hour_valid : hour < 24
  minute_valid : minute < 60
  second_valid : second < 60

namespace DateTime

def secondOfDay (time : DateTime) : ℕ := time.hour * 3600 + time.minute * 60 + time.second

/-- Seconds since the first of January 1970. -/
def seconds (time : DateTime) : ℤ :=
  ((time.date.days : ℤ) - daysBeforeYear 1970) * 86400 + time.secondOfDay

/-- `YYYY-MM-DDThh:mm:ssZ`. -/
def text (time : DateTime) : List Char :=
  fixedDigits 4 time.date.year ++ '-' :: (fixedDigits 2 time.date.month ++ '-' ::
    (fixedDigits 2 time.date.day ++ 'T' :: (fixedDigits 2 time.hour ++ ':' ::
      (fixedDigits 2 time.minute ++ ':' :: (fixedDigits 2 time.second ++ ['Z'])))))

variable {time later : DateTime}

/-- Two fields and what follows their separator. -/
theorem field_lt {width n m : ℕ} {mark : Char} {left right : List Char} (fits : m < 10 ^ width)
    (less : n < m ∨ n = m ∧ left < right) :
    fixedDigits width n ++ mark :: left < fixedDigits width m ++ mark :: right := by
  rcases less with first | ⟨same, rest⟩
  · exact fixedDigits_append_lt first fits
  · rw [same]
    apply List.append_left_lt
    exact List.cons_lt_cons_self.mpr rest

theorem secondOfDay_lt (time : DateTime) : time.secondOfDay < 86400 := by
  have hour := time.hour_valid
  have minute := time.minute_valid
  have second := time.second_valid
  rw [secondOfDay]
  omega

theorem day_lt (time : DateTime) : time.date.day < 100 := by
  have valid := time.date.day_valid
  have length := @monthLength_le time.date.year time.date.month
  omega

theorem before_of_seconds_lt (less : time.seconds < later.seconds) :
    time.date.Before later.date ∨ time.date = later.date ∧
      (time.hour < later.hour ∨ time.hour = later.hour ∧
        (time.minute < later.minute ∨ time.minute = later.minute ∧ time.second < later.second)) := by
  have inside := time.secondOfDay_lt
  have insideLater := later.secondOfDay_lt
  rw [seconds, seconds] at less
  by_cases days : time.date.days < later.date.days
  · exact .inl (Date.days_lt_iff.mp days)
  · have same : time.date.days = later.date.days := by omega
    refine .inr ⟨Date.days_inj same, ?_⟩
    have minute := time.minute_valid
    have minuteLater := later.minute_valid
    have second := time.second_valid
    have secondLater := later.second_valid
    rw [secondOfDay, secondOfDay] at *
    omega

/-- The field in which two times first differ decides for both orders. -/
theorem text_lt (written : later.date.year < 10000) (less : time.seconds < later.seconds) :
    time.text < later.text := by
  have months := later.date.month_valid
  have hours := later.hour_valid
  have minutes := later.minute_valid
  have clock := later.second_valid
  have days := later.day_lt
  rcases before_of_seconds_lt less with before | ⟨date, times⟩
  · refine field_lt written (before.imp_right fun same => ⟨same.1, ?_⟩)
    refine field_lt (by omega) (same.2.imp_right fun same => ⟨same.1, ?_⟩)
    exact field_lt days (.inl same.2)
  · rw [text, text, date]
    refine field_lt written (.inr ⟨rfl, field_lt (by omega) (.inr ⟨rfl, field_lt days (.inr ⟨rfl, ?_⟩)⟩)⟩)
    refine field_lt (by omega) (times.imp_right fun same => ⟨same.1, ?_⟩)
    refine field_lt (by omega) (same.2.imp_right fun same => ⟨same.1, ?_⟩)
    exact field_lt (by omega) (.inl same.2)

end DateTime

end GlancesRs.Data
