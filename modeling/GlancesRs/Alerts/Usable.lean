import GlancesRs.Alerts.Ladder
import GlancesRs.Data.FloatOrder

namespace GlancesRs

open Data

/-! Which levels a validated ladder can report. Validation orders the limits
upwards whatever the direction; a falling value then meets them in the wrong
order. -/

/-- Some value is reported at each level. -/
def Effective.Usable (limits : Effective) (dir : Direction) : Prop :=
  ∀ level, ∃ value, computeLevel value limits dir = level

def Thresholds.effective (t : Thresholds) : Effective := ⟨t.careful, t.warning, t.critical⟩

/-- All three limits set, to different values. -/
structure Thresholds.Distinct (t : Thresholds) (careful warning critical : Float) : Prop where
  declared : t = { careful := some careful, warning := some warning, critical := some critical }
  careful_ne_warning : (careful == warning) = false
  warning_ne_critical : (warning == critical) = false
  careful_ne_critical : (careful == critical) = false

variable {plugin field : String} {t : Thresholds} {careful warning critical value : Float}
variable {dir : Direction}

/-- Under `low` the highest limit takes every breach. -/
theorem computeLevel_low (ordered : OrderedLimits (some careful) (some warning) (some critical))
    (value : Float) :
    computeLevel value ⟨some careful, some warning, some critical⟩ .low =
      if value ≤ critical then .critical else .ok := by
  have warned : value ≤ warning → value ≤ critical :=
    fun below => Float.le_trans_rank below (ordered.warning_le_critical warning rfl critical rfl)
  have cautioned : value ≤ careful → value ≤ critical :=
    fun below => Float.le_trans_rank below (ordered.careful_le_critical careful rfl critical rfl)
  by_cases breach : value ≤ critical
  · simp [computeLevel, breached, breach]
  · have notWarned : ¬ value ≤ warning := fun below => breach (warned below)
    have notCautioned : ¬ value ≤ careful := fun below => breach (cautioned below)
    simp [computeLevel, breached, breach, notWarned, notCautioned]

theorem low_not_usable (ordered : OrderedLimits (some careful) (some warning) (some critical)) :
    ¬ Effective.Usable ⟨some careful, some warning, some critical⟩ .low := by
  intro usable
  obtain ⟨value, warned⟩ := usable .warning
  rw [computeLevel_low ordered value] at warned
  split at warned <;> cases warned

theorem high_usable (ordered : OrderedLimits (some careful) (some warning) (some critical))
    (lower : (careful == warning) = false) (upper : (warning == critical) = false)
    (outer : (careful == critical) = false) :
    Effective.Usable ⟨some careful, some warning, some critical⟩ .high := by
  have carefulFinite := ordered.careful_finite careful rfl
  have warningFinite := ordered.warning_finite warning rfl
  have criticalFinite := ordered.critical_finite critical rfl
  intro level
  cases level with
  | critical =>
      exact ⟨critical, by simp [computeLevel, breached, Float.le_refl_of_isFinite criticalFinite]⟩
  | warning =>
      have below : ¬ critical ≤ warning :=
        Float.not_le_of_le_of_ne (ordered.warning_le_critical warning rfl critical rfl) upper
      exact ⟨warning, by
        simp [computeLevel, breached, below, Float.le_refl_of_isFinite warningFinite]⟩
  | careful =>
      have below : ¬ critical ≤ careful :=
        Float.not_le_of_le_of_ne (ordered.careful_le_critical careful rfl critical rfl) outer
      have between : ¬ warning ≤ careful :=
        Float.not_le_of_le_of_ne (ordered.careful_le_warning careful rfl warning rfl) lower
      exact ⟨careful, by
        simp [computeLevel, breached, below, between, Float.le_refl_of_isFinite carefulFinite]⟩
  | ok =>
      exact ⟨-(1 / 0), by
        simp [computeLevel, breached, Float.not_isFinite_le_negInfinity criticalFinite,
          Float.not_isFinite_le_negInfinity warningFinite,
          Float.not_isFinite_le_negInfinity carefulFinite]⟩

/-- A ladder that passes validation can report all its levels exactly when it is
climbed upwards. -/
theorem accepted_usable_iff (accepted : checkThresholdOrder plugin field t = .ok ())
    (distinct : t.Distinct careful warning critical) :
    t.effective.Usable dir ↔ dir = .high := by
  obtain ⟨rfl, lower, upper, outer⟩ := distinct
  have ordered := checkThresholdOrder_ok.mp accepted
  cases dir with
  | high => exact iff_of_true (high_usable ordered lower upper outer) rfl
  | low => exact iff_of_false (low_not_usable ordered) (by decide)

def diskLadder : Thresholds := { careful := some 70, warning := some 80, critical := some 90 }

theorem diskLadder_distinct : diskLadder.Distinct 70 80 90 where
  declared := rfl
  careful_ne_warning := by decide +kernel
  warning_ne_critical := by decide +kernel
  careful_ne_critical := by decide +kernel

theorem diskLadder_accepted_usable : diskLadder.effective.Usable .high :=
  (@accepted_usable_iff "fs" "percent" diskLadder 70 80 90 .high (by rfl) diskLadder_distinct).mpr rfl

theorem diskLadder_low_not_usable :
    checkThresholdOrder "fs" "percent" diskLadder = .ok () ∧ diskLadder.Distinct 70 80 90 ∧
      ¬ diskLadder.effective.Usable .low :=
  have accepted : checkThresholdOrder "fs" "percent" diskLadder = .ok () := by rfl
  ⟨accepted, diskLadder_distinct, low_not_usable (checkThresholdOrder_ok.mp accepted)⟩

end GlancesRs
