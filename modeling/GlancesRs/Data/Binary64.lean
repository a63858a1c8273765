import Mathlib.Algebra.Order.Field.Power
import Mathlib.Algebra.Order.Field.Rat
import Mathlib.Tactic.Linarith

/-! Exact rational values of IEEE binary64 numbers. Lean's `Float` carries the
bit-level model; these are the facts about values that programs which convert
or compare floats rely on. -/

namespace Float

open Model Model.UnpackedFloat

variable {x : Float} {value : ℚ}

/-- The rational a finite float stands for; `none` for NaN and the infinities. -/
def toRational? (x : Float) : Option ℚ :=
  match x.toModel.unpack with
  | .finite sign mantissa exponent _ => some (sign.apply mantissa * 2 ^ exponent)
  | .zero _ => some 0
  | .infinity _ => none
  | .notANumber => none

theorem isFinite_cases (finite : x.isFinite = true) :
    (∃ sign, x.toModel.unpack = .zero sign) ∨
    ∃ sign mantissa exponent positive,
      x.toModel.unpack = .finite sign mantissa exponent positive := by
  change x.toModel.unpack.isFinite = true at finite
  cases unpacked : x.toModel.unpack with
  | infinity sign | notANumber =>
      rw [unpacked] at finite
      cases finite
  | zero sign => exact .inl ⟨sign, rfl⟩
  | finite sign mantissa exponent positive => exact .inr ⟨sign, mantissa, exponent, positive, rfl⟩

theorem toRational?_of_isFinite (finite : x.isFinite = true) : ∃ value, x.toRational? = some value := by
  rcases isFinite_cases finite with ⟨sign, unpacked⟩ | ⟨sign, mantissa, exponent, positive, unpacked⟩
  · rw [toRational?, unpacked]
    exact ⟨0, rfl⟩
  · rw [toRational?, unpacked]
    exact ⟨_, rfl⟩

theorem toRational?_cases (known : x.toRational? = some value) :
    (∃ sign, x.toModel.unpack = .zero sign ∧ value = 0) ∨
    ∃ sign mantissa exponent positive,
      x.toModel.unpack = .finite sign mantissa exponent positive ∧
      value = sign.apply mantissa * 2 ^ exponent := by
  rw [toRational?] at known
  cases unpacked : x.toModel.unpack with
  | infinity sign | notANumber =>
      rw [unpacked] at known
      cases known
  | zero sign =>
      rw [unpacked] at known
      exact .inl ⟨sign, rfl, (Option.some.inj known).symm⟩
  | finite sign mantissa exponent positive =>
      rw [unpacked] at known
      exact .inr ⟨sign, mantissa, exponent, positive, rfl, (Option.some.inj known).symm⟩

theorem apply_pos_iff (sign : Sign) {mantissa : Nat} (exponent : ℤ) (positive : 0 < mantissa) :
    0 < (sign.apply mantissa : ℚ) * 2 ^ exponent ↔ sign = .positive := by
  have scaled : (0 : ℚ) < 2 ^ exponent := zpow_pos (by norm_num) exponent
  have magnitude : (0 : ℚ) < mantissa := by exact_mod_cast positive
  cases sign with
  | positive => simpa [Sign.apply] using mul_pos magnitude scaled
  | negative =>
      simp only [Sign.apply, Int.cast_neg, Int.cast_natCast, reduceCtorEq, iff_false, not_lt]
      nlinarith

theorem pos_iff (known : x.toRational? = some value) : 0 < x ↔ 0 < value := by
  have compared : 0 < x ↔ UnpackedFloat.lt (.zero .positive) x.toModel.unpack = true := by
    change Float.lt 0 x = true ↔ _
    simp only [Float.lt, decide_eq_true_eq]
    exact Iff.rfl
  rw [compared]
  rcases toRational?_cases known with
      ⟨sign, unpacked, rfl⟩ | ⟨sign, mantissa, exponent, positive, unpacked, rfl⟩
  · rw [unpacked]
    cases sign <;> exact iff_of_false Bool.false_ne_true (lt_irrefl 0)
  · rw [unpacked, apply_pos_iff sign exponent positive]
    cases sign with
    | positive => exact iff_of_true rfl rfl
    | negative => exact iff_of_false Bool.false_ne_true (by simp)

theorem nonneg_iff (known : x.toRational? = some value) : 0 ≤ x ↔ 0 ≤ value := by
  have compared : 0 ≤ x ↔ UnpackedFloat.le (.zero .positive) x.toModel.unpack = true := by
    change Float.le 0 x = true ↔ _
    simp only [Float.le, decide_eq_true_eq]
    exact Iff.rfl
  rw [compared]
  rcases toRational?_cases known with
      ⟨sign, unpacked, rfl⟩ | ⟨sign, mantissa, exponent, positive, unpacked, rfl⟩
  · rw [unpacked]
    cases sign <;> exact iff_of_true rfl le_rfl
  · have nonzero : (sign.apply mantissa : ℚ) * 2 ^ exponent ≠ 0 := by
      have magnitude : mantissa ≠ 0 := positive.ne'
      have scaled : (2 : ℚ) ^ exponent ≠ 0 := zpow_ne_zero exponent (by norm_num)
      cases sign <;> simp [Sign.apply, magnitude, scaled]
    rw [unpacked, le_iff_lt_or_eq, or_iff_left nonzero.symm, apply_pos_iff sign exponent positive]
    cases sign with
    | positive => exact iff_of_true rfl rfl
    | negative => exact iff_of_false Bool.false_ne_true (by simp)

theorem unpack_mantissa_lt {bits : BitVec Format.binary64.numBits} {sign : Sign} {mantissa : Nat}
    {exponent : ℤ} {positive : 0 < mantissa}
    (unpacked : UnpackedFloat.unpack Format.binary64 bits = .finite sign mantissa exponent positive) :
    mantissa < 2 ^ 53 := by
  delta UnpackedFloat.unpack at unpacked
  dsimp only at unpacked
  by_cases special : unpackExponent bits = -1#_
  · rw [if_pos special] at unpacked
    by_cases infinite : unpackMantissa bits = 0#_
    · rw [if_pos infinite] at unpacked
      cases unpacked
    · rw [if_neg infinite] at unpacked
      cases unpacked
  · rw [if_neg special] at unpacked
    by_cases small : unpackExponent bits = 0#_
    · rw [if_pos small] at unpacked
      by_cases zero : unpackMantissa bits = 0#_
      · rw [dif_pos zero] at unpacked
        cases unpacked
      · rw [dif_neg zero] at unpacked
        injection unpacked with _ same
        rw [← same]
        exact (unpackMantissa bits).isLt.trans (by decide)
    · rw [if_neg small] at unpacked
      injection unpacked with _ same
      rw [← same]
      exact (1#1 ++ unpackMantissa bits).isLt

/-- From `2 ^ 53` on binary64 has no fractional values. -/
theorem toRational?_integer (known : x.toRational? = some value) (large : 2 ^ 53 ≤ value) :
    ∃ whole : ℕ, value = whole := by
  rcases toRational?_cases known with
      ⟨_, _, rfl⟩ | ⟨sign, mantissa, exponent, positive, unpacked, rfl⟩
  · norm_num at large
  · obtain rfl := (apply_pos_iff sign exponent positive).mp (by linarith)
    have bounded : mantissa < 2 ^ 53 := unpack_mantissa_lt unpacked
    have small : (mantissa : ℚ) < 2 ^ 53 := by exact_mod_cast bounded
    simp only [Sign.apply, Int.cast_natCast] at large ⊢
    have scaled : 0 ≤ exponent := by
      by_contra negative
      have shrunk : (2 : ℚ) ^ exponent ≤ 1 := zpow_le_one_of_nonpos₀ (by norm_num) (by omega)
      have magnitude : (0 : ℚ) < mantissa := by exact_mod_cast positive
      nlinarith
    obtain ⟨power, rfl⟩ := Int.eq_ofNat_of_zero_le scaled
    exact ⟨mantissa * 2 ^ power, by push_cast; simp⟩

end Float
