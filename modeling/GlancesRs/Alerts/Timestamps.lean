import GlancesRs.Alerts.Observe
import GlancesRs.Data.DateTime
import Mathlib.Data.String.Basic

namespace GlancesRs

open Data

/-! The timestamps of events: the calendar date and time of the instant, up to
the end of the year 9999. -/

/-- The start of a year, from 1970 on. -/
def startOfYear (year : ℕ) : SystemTime :=
  ((daysBeforeYear year : ℤ) - daysBeforeYear 1970) * 86400 * 10 ^ 9

variable {t other : SystemTime} {width n : ℕ} {time : DateTime}

theorem toList_zeroPadded (fits : n < 10 ^ width) (wide : 0 < width) :
    (zeroPadded width (n : ℤ)).toList = fixedDigits width n := by
  rw [← replicate_append_toDigits fits wide, ← Nat.toList_repr]
  have positive : ¬ (n : ℤ) < 0 := by omega
  simp [zeroPadded, positive, Nat.toList_repr, ← String.length_toList]

/-- The date of `iso8601Utc`: year, month and day of the days since 1970. -/
def civilFromDays (days : ℤ) : ℤ × ℤ × ℤ :=
  let z := days + 719468
  let era := z / 146097
  let doe := z - era * 146097
  let yoe := (doe - doe / 1460 + doe / 36524 - doe / 146096) / 365
  let doy := doe - (365 * yoe + yoe / 4 - yoe / 100)
  let mp := (5 * doy + 2) / 153
  let month := if mp < 10 then mp + 3 else mp - 9
  (if month ≤ 2 then yoe + era * 400 + 1 else yoe + era * 400, month, doy - (153 * mp + 2) / 5 + 1)

theorem civilFromDays_natCast (days : ℕ) : ∃ date : Date, date.days = days + daysBeforeYear 1970 ∧
    civilFromDays days = ((date.year : ℤ), (date.month : ℤ), (date.day : ℤ)) := by
  have epoch : daysBeforeYear 1970 = 719528 := daysBeforeYear_succ
  obtain ⟨date, month_eq, year_eq, day_eq, days_eq⟩ := exists_date (days + 719468)
  obtain ⟨doy, _, counted, _, _⟩ := @exists_dayOfYear ((days + 719468) % daysInCycle)
    (Nat.mod_lt _ (by decide))
  have ofYear : (days + 719468) % daysInCycle -
      daysBeforeYearOfEra (yearOfEra ((days + 719468) % daysInCycle)) = doy := by
    omega
  refine ⟨date, by omega, ?_⟩
  rw [ofYear] at month_eq day_eq
  unfold civilFromDays
  extract_lets z era doe yoe doyInt mp month
  have era_eq : era = (((days + 719468) / daysInCycle : ℕ) : ℤ) := by
    simp only [era, z, daysInCycle]
    omega
  have doe_eq : doe = (((days + 719468) % daysInCycle : ℕ) : ℤ) := by
    simp only [doe, era_eq, z, daysInCycle]
    omega
  clear_value era doe
  generalize (days + 719468) / daysInCycle = eraNat at *
  generalize (days + 719468) % daysInCycle = doeNat at *
  have yoe_eq : yoe = ((yearOfEra doeNat : ℕ) : ℤ) := by
    simp only [yoe, doe_eq, yearOfEra]
    omega
  clear_value yoe
  generalize yearOfEra doeNat = yoeNat at *
  have doy_eq : doyInt = ((doy : ℕ) : ℤ) := by
    simp only [doyInt, doe_eq, yoe_eq]
    rw [daysBeforeYearOfEra] at counted
    omega
  clear_value doyInt
  have mp_eq : mp = ((monthOfYear doy : ℕ) : ℤ) := by
    simp only [mp, doy_eq, monthOfYear]
    omega
  have started := (@monthOfYear_bounds doy).1
  clear_value mp
  generalize monthOfYear doy = mpNat at *
  have month_cast : month = ((date.month : ℕ) : ℤ) := by
    simp only [month, mp_eq, month_eq, civilMonth]
    split <;> split <;> omega
  clear_value month
  rw [civilYear] at year_eq
  rw [daysBeforeMonthOfYear] at day_eq started
  refine Prod.ext ?_ (Prod.ext month_cast ?_)
  · split at year_eq <;> split <;> omega
  · show doyInt - (153 * mp + 2) / 5 + 1 = (date.day : ℤ)
    omega

theorem iso8601Utc_eq (epoch : 0 ≤ t) : iso8601Utc t =
    let days := t / 10 ^ 9 / 86400
    let tod := t / 10 ^ 9 % 86400
    let (year, month, day) := civilFromDays days
    let date := s!"{zeroPadded 4 year}-{zeroPadded 2 month}-{zeroPadded 2 day}"
    let time := s!"{zeroPadded 2 (tod / 3600)}:{zeroPadded 2 (tod % 3600 / 60)}:{zeroPadded 2 (tod % 60)}"
    s!"{date}T{time}Z" := by
  have started : ¬ t < 0 := not_lt.mpr epoch
  unfold iso8601Utc
  rw [if_neg started]
  rfl

theorem exists_dateTime (epoch : 0 ≤ t) : ∃ time : DateTime, time.seconds = t / 10 ^ 9 ∧
    (time.date.year < 10000 → (iso8601Utc t).toList = time.text) := by
  obtain ⟨n, whole⟩ : ∃ n : ℕ, t / 10 ^ 9 = n :=
    ⟨(t / 10 ^ 9).toNat, (Int.toNat_of_nonneg (Int.ediv_nonneg epoch (by decide))).symm⟩
  obtain ⟨date, days, civil⟩ := civilFromDays_natCast (n / 86400)
  let time : DateTime := ⟨date, n % 86400 / 3600, n % 86400 % 3600 / 60, n % 86400 % 60, by omega,
    by omega, by omega⟩
  refine ⟨time, ?_, fun written => ?_⟩
  · rw [whole, DateTime.seconds, DateTime.secondOfDay]
    simp only [time]
    omega
  · have hour : (n : ℤ) % 86400 / 3600 = (time.hour : ℤ) := by simp [time]
    have minute : (n : ℤ) % 86400 % 3600 / 60 = (time.minute : ℤ) := by simp [time]
    have second : (n : ℤ) % 86400 % 60 = (time.second : ℤ) := by simp [time]
    have dayCount : (n : ℤ) / 86400 = ((n / 86400 : ℕ) : ℤ) := by simp
    have months := date.month_valid
    have dayBound := time.day_lt
    have hours := time.hour_valid
    have minutes := time.minute_valid
    have seconds := time.second_valid
    rw [iso8601Utc_eq epoch, whole]
    simp only [dayCount, civil, hour, minute, second, String.toList_append, toString]
    rw [toList_zeroPadded written (by decide), toList_zeroPadded (n := date.month) (by omega) (by decide),
      toList_zeroPadded (n := date.day) dayBound (by decide),
      toList_zeroPadded (n := time.hour) (by omega) (by decide),
      toList_zeroPadded (n := time.minute) (by omega) (by decide),
      toList_zeroPadded (n := time.second) (by omega) (by decide)]
    simp [DateTime.text, time]

theorem startOfYear_10000 : startOfYear 10000 = 253402300800 * 10 ^ 9 := by
  have first : daysBeforeYear 1970 = 719528 := daysBeforeYear_succ
  have last : daysBeforeYear 10000 = 3652425 := daysBeforeYear_succ
  rw [startOfYear, first, last]
  rfl

theorem year_lt {nanos : ℤ} {year : ℕ} (before : nanos < startOfYear year)
    (now : time.seconds = nanos / 10 ^ 9) : time.date.year < year := by
  by_contra late
  have years : daysBeforeYear year ≤ daysBeforeYear time.date.year :=
    daysBeforeYear_mono (Nat.not_lt.mp late)
  have started : daysBeforeYear time.date.year ≤ time.date.days := by
    rw [Date.days]
    omega
  have early : nanos < ((daysBeforeYear year : ℤ) - daysBeforeYear 1970) * 86400 * 10 ^ 9 := before
  have whole : nanos / 10 ^ 9 * 10 ^ 9 ≤ nanos := Int.ediv_mul_le nanos (by decide)
  rw [DateTime.seconds] at now
  omega

/-- The second of an instant and of its timestamp. -/
theorem exists_timestamp (epoch : 0 ≤ t) (before : t < startOfYear 10000) :
    ∃ time : DateTime, (iso8601Utc t).toList = time.text ∧ time.date.year < 10000 ∧
      time.seconds = t / 10 ^ 9 := by
  obtain ⟨time, now, shown⟩ := exists_dateTime epoch
  have written := year_lt before now
  exact ⟨time, shown written, written, now⟩

theorem iso8601Utc_lt (epoch : 0 ≤ t) (before : t < startOfYear 10000) (otherEpoch : 0 ≤ other)
    (otherBefore : other < startOfYear 10000) (less : t / 10 ^ 9 < other / 10 ^ 9) :
    iso8601Utc t < iso8601Utc other := by
  obtain ⟨time, shown, _, now⟩ := exists_timestamp epoch before
  obtain ⟨later, laterShown, written, laterNow⟩ := exists_timestamp otherEpoch otherBefore
  rw [String.lt_iff_toList_lt, shown, laterShown]
  apply DateTime.text_lt written
  rw [now, laterNow]
  exact less

theorem iso8601Utc_congr (epoch : 0 ≤ t) (otherEpoch : 0 ≤ other)
    (same : t / 10 ^ 9 = other / 10 ^ 9) : iso8601Utc t = iso8601Utc other := by
  rw [iso8601Utc_eq epoch, iso8601Utc_eq otherEpoch, same]

/-- The timestamp of an instant up to the end of the year 9999 is the text of a
valid date and time whose seconds are the instant's, and timestamps compare as
the seconds do. -/
theorem iso8601Utc_correct (epoch : 0 ≤ t) (before : t < startOfYear 10000) :
    (∃ time : DateTime, (iso8601Utc t).toList = time.text ∧ time.date.year < 10000 ∧
        time.seconds = t / 10 ^ 9) ∧
      ∀ other, 0 ≤ other → other < startOfYear 10000 →
        (iso8601Utc t < iso8601Utc other ↔ t / 10 ^ 9 < other / 10 ^ 9) := by
  refine ⟨exists_timestamp epoch before, fun other otherEpoch otherBefore => ?_⟩
  constructor
  · intro ordered
    rcases lt_trichotomy (t / 10 ^ 9) (other / 10 ^ 9) with less | same | more
    · exact less
    · rw [iso8601Utc_congr epoch otherEpoch same] at ordered
      exact absurd ordered (lt_irrefl _)
    · exact absurd ordered (iso8601Utc_lt otherEpoch otherBefore epoch before more).not_gt
  · exact iso8601Utc_lt epoch before otherEpoch otherBefore

theorem newYear2021_iso8601Utc_correct :
    (∃ time : DateTime, (iso8601Utc (1609459200 * 10 ^ 9)).toList = time.text ∧
        time.date.year < 10000 ∧ time.seconds = 1609459200) ∧
      iso8601Utc (1609459200 * 10 ^ 9) < iso8601Utc (1781440496 * 10 ^ 9) := by
  have first : (1609459200 * 10 ^ 9 : SystemTime) < startOfYear 10000 := by
    rw [startOfYear_10000]
    decide
  have second : (1781440496 * 10 ^ 9 : SystemTime) < startOfYear 10000 := by
    rw [startOfYear_10000]
    decide
  have correct := iso8601Utc_correct (t := 1609459200 * 10 ^ 9) (by decide) first
  exact ⟨correct.1, (correct.2 (1781440496 * 10 ^ 9) (by decide) second).mpr (by decide)⟩

end GlancesRs
