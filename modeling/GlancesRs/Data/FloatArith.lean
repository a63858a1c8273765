import GlancesRs.Data.Rounding

/-! The arithmetic of binary64 in rational values: each operation rounds the exact
result, as long as that is at most `2 ^ 200`. -/

namespace Float

open Model Model.UnpackedFloat

section Packing

variable {sign : Sign} {mantissa : ℕ} {exponent : ℤ} {value : ℚ}

section Components

variable {spec : Format} {stored : BitVec spec.exponentBits}
variable {fraction : BitVec spec.mantissaBitsWithoutImplicit}

theorem unpack_normal (finite : stored ≠ -1#_) (normal : stored ≠ 0#_) :
    ∃ positive, UnpackedFloat.unpack spec (packComponents spec sign stored fraction) =
      .finite sign (1#1 ++ fraction).toNat
        (stored.toNat - (spec.exponentBias + spec.mantissaBitsWithoutImplicit)) positive := by
  simp only [UnpackedFloat.unpack, unpackExponent_packComponents, unpackMantissa_packComponents,
    unpackSign_packComponents, Sign.ofBitVec_toBitVec, if_neg finite, if_neg normal]
  exact ⟨by simp, trivial⟩

theorem unpack_subnormal (some_ : fraction ≠ 0#_) (finite : BitVec.ofNat spec.exponentBits 0 ≠ -1#_) :
    ∃ positive, UnpackedFloat.unpack spec (packComponents spec sign 0#_ fraction) =
      .finite sign fraction.toNat
        (0 - (spec.exponentBias + spec.mantissaBitsWithoutImplicit) + 1) positive := by
  simp only [UnpackedFloat.unpack, unpackExponent_packComponents, unpackMantissa_packComponents,
    unpackSign_packComponents, Sign.ofBitVec_toBitVec, if_neg finite, if_true, dif_neg some_,
    BitVec.toNat_zero, Nat.cast_zero]
  exact ⟨Nat.pos_of_ne_zero fun zero => some_ (BitVec.eq_of_toNat_eq zero), trivial⟩

end Components

theorem unpack_pack_zero (sign : Sign) :
    UnpackedFloat.unpack Format.binary64 (UnpackedFloat.pack Format.binary64 (.zero sign)) =
      .zero sign := by
  cases sign <;> rfl

theorem one_append_toNat (filled : 2 ^ 52 ≤ mantissa) (bounded : mantissa < 2 ^ 53) :
    (1#1 ++ BitVec.ofNat 52 mantissa).toNat = mantissa := by
  rw [BitVec.toNat_append, ← Nat.shiftLeft_add_eq_or_of_lt (BitVec.ofNat 52 mantissa).isLt,
    BitVec.toNat_ofNat, Nat.shiftLeft_eq, BitVec.toNat_ofNat]
  omega

/-- What is in canonical form and below the largest exponent survives packing. -/
theorem unpack_pack_finite (canonical : Canonical mantissa exponent) (fits : exponent ≤ 971)
    (positive : 0 < mantissa) :
    UnpackedFloat.unpack Format.binary64
        (UnpackedFloat.pack Format.binary64 (.finite sign mantissa exponent positive)) =
      .finite sign mantissa exponent positive := by
  obtain ⟨bounded, normal, full⟩ := canonical
  have bias : (Format.binary64.exponentBias : ℤ) = 1023 := rfl
  have digits : (Format.binary64.mantissaBitsWithoutImplicit : ℤ) = 52 := rfl
  obtain ⟨biased, stored⟩ : ∃ biased : ℕ, (exponent + 1023 + 52).toNat = biased := ⟨_, rfl⟩
  have range : ¬ 2 ^ Format.binary64.exponentBits ≤ biased + 1 := by
    change ¬ 2 ^ 11 ≤ biased + 1
    omega
  rw [UnpackedFloat.pack]
  simp only [bias, digits, stored, if_neg range]
  by_cases filled : 2 ^ 52 ≤ mantissa
  · have wide : mantissa.log2 + 1 = Format.binary64.mantissaBits := by
      have least := (Nat.le_log2 positive.ne').mpr filled
      have most := (log2_lt_iff (by norm_num)).mpr bounded
      change mantissa.log2 + 1 = 53
      omega
    have kept : (BitVec.ofNat 11 biased).toNat = biased := Nat.mod_eq_of_lt (by omega)
    have finite : BitVec.ofNat 11 biased ≠ -1#11 := by
      intro same
      rw [same] at kept
      change 2047 = biased at kept
      omega
    have nonzero : BitVec.ofNat 11 biased ≠ 0#11 := by
      intro same
      rw [same] at kept
      change 0 = biased at kept
      omega
    rw [if_pos wide]
    obtain ⟨_, unpacked⟩ := @unpack_normal sign Format.binary64 (BitVec.ofNat 11 biased)
      (BitVec.ofNat 52 mantissa) finite nonzero
    rw [unpacked]
    have restored : ((BitVec.ofNat 11 biased).toNat : ℤ) - (1023 + 52) = exponent := by
      rw [kept]
      omega
    congr 1
    exact one_append_toNat filled bounded
  · have least := full.resolve_left filled
    have narrow : ¬ mantissa.log2 + 1 = Format.binary64.mantissaBits := by
      have most := (log2_lt_iff (by norm_num)).mpr (not_le.mp filled)
      change ¬ mantissa.log2 + 1 = 53
      omega
    have kept : (BitVec.ofNat 52 mantissa).toNat = mantissa := Nat.mod_eq_of_lt (not_le.mp filled)
    have nonzero : BitVec.ofNat 52 mantissa ≠ 0#52 := by
      intro same
      rw [same] at kept
      exact positive.ne kept
    rw [if_neg narrow]
    obtain ⟨_, unpacked⟩ := @unpack_subnormal sign Format.binary64 (BitVec.ofNat 52 mantissa) nonzero
      (by decide)
    rw [unpacked]
    congr 1
    rw [least]
    rfl

/-- What is unpacked is in canonical form. -/
theorem canonical_of_unpack {bits : BitVec Format.binary64.numBits} {positive : 0 < mantissa}
    (unpacked : UnpackedFloat.unpack Format.binary64 bits = .finite sign mantissa exponent positive) :
    Canonical mantissa exponent := by
  have bounded := unpack_mantissa_lt unpacked
  have bias : (Format.binary64.exponentBias : ℤ) = 1023 := rfl
  have digits : (Format.binary64.mantissaBitsWithoutImplicit : ℤ) = 52 := rfl
  delta UnpackedFloat.unpack at unpacked
  dsimp only at unpacked
  by_cases special : unpackExponent bits = -1#_
  · rw [if_pos special] at unpacked
    split at unpacked <;> cases unpacked
  · rw [if_neg special] at unpacked
    by_cases small : unpackExponent bits = 0#_
    · rw [if_pos small] at unpacked
      by_cases zero : unpackMantissa bits = 0#_
      · rw [dif_pos zero] at unpacked
        cases unpacked
      · rw [dif_neg zero, small, bias, digits] at unpacked
        injection unpacked with _ _ least
        refine ⟨bounded, ?_, .inr ?_⟩ <;> rw [← least] <;> decide
    · rw [if_neg small, bias, digits] at unpacked
      injection unpacked with _ filled scaled
      have raised : (unpackExponent bits).toNat ≠ 0 := fun zero => small (BitVec.eq_of_toNat_eq zero)
      refine ⟨bounded, by omega, .inl ?_⟩
      rw [← filled, BitVec.toNat_append]
      exact Nat.left_le_or

end Packing

section Operations

variable {x y : Float} {a b : ℚ} {left right : UnpackedFloat}

theorem unpack_holds (known : x.toRational? = some a) : Holds x.toModel.unpack a := by
  rcases toRational?_cases known with
      ⟨sign, unpacked, rfl⟩ | ⟨sign, mantissa, exponent, positive, unpacked, rfl⟩
  · exact .inl ⟨sign, unpacked, rfl⟩
  · exact .inr ⟨sign, mantissa, exponent, positive, unpacked, canonical_of_unpack unpacked, rfl⟩

theorem toRational?_pack (holds : Holds left a) (range : a ≤ 2 ^ 200) (range' : -a ≤ 2 ^ 200) :
    (Float.ofModel (Model.pack left)).toRational? = some a := by
  have packed : (Float.ofModel (Model.pack left)).toModel.unpack =
    UnpackedFloat.unpack Format.binary64 (UnpackedFloat.pack Format.binary64 left) := rfl
  rcases holds with ⟨sign, rfl, rfl⟩ | ⟨sign, mantissa, exponent, positive, rfl, canonical, rfl⟩
  · rw [toRational?, packed, unpack_pack_zero]
  · have fits : exponent ≤ 971 := by
      by_contra beyond
      have full : (2 : ℚ) ^ 52 ≤ mantissa := by
        exact_mod_cast canonical.full.resolve_right (by omega)
      have large : (2 : ℚ) ^ 52 * 2 ^ exponent ≤ mantissa * 2 ^ exponent :=
        mul_le_mul_of_nonneg_right full (two_zpow_pos exponent).le
      have size : (mantissa : ℚ) * 2 ^ exponent ≤ 2 ^ 200 := by
        cases sign with
        | positive => simpa [Sign.apply] using range
        | negative => simpa [Sign.apply] using range'
      have least : (2 : ℚ) ^ (1024 : ℤ) ≤ 2 ^ 52 * 2 ^ exponent := by
        rw [two_pow_mul_zpow]
        exact zpow_le_zpow (by push_cast; omega)
      have beneath : (2 : ℚ) ^ (1024 : ℤ) ≤ 2 ^ (200 : ℤ) :=
        least.trans (large.trans (by exact_mod_cast size))
      have above : (2 : ℚ) ^ (200 : ℤ) < 2 ^ (1024 : ℤ) :=
        zpow_lt_zpow_right₀ (by norm_num) (by decide)
      exact beneath.not_gt above
    rw [toRational?, packed, unpack_pack_finite canonical fits positive]

theorem apply_ne_zero (sign : Sign) {mantissa : ℕ} (exponent : ℤ) (positive : 0 < mantissa) :
    (sign.apply mantissa : ℚ) * 2 ^ exponent ≠ 0 := by
  have magnitude : mantissa ≠ 0 := positive.ne'
  have scaled : (2 : ℚ) ^ exponent ≠ 0 := (two_zpow_pos exponent).ne'
  cases sign <;> simp [Sign.apply, magnitude, scaled]

theorem apply_mul {sign : Sign} {first second : ℕ} {scale scale' : ℤ}
    (same : (first : ℚ) * 2 ^ scale = second * 2 ^ scale') :
    (sign.apply first : ℚ) * 2 ^ scale = sign.apply second * 2 ^ scale' := by
  cases sign <;> simpa [Sign.apply] using same

theorem Holds.nonneg_cases (holds : Holds left a) (nonneg : 0 ≤ a) :
    (∃ sign, left = .zero sign ∧ a = 0) ∨
    ∃ mantissa exponent positive, left = .finite .positive mantissa exponent positive ∧
      Canonical mantissa exponent ∧ a = mantissa * 2 ^ exponent := by
  rcases holds with zero | ⟨sign, mantissa, exponent, positive, rfl, canonical, rfl⟩
  · exact .inl zero
  · have above : 0 < (sign.apply mantissa : ℚ) * 2 ^ exponent :=
      lt_of_le_of_ne nonneg (apply_ne_zero sign exponent positive).symm
    obtain rfl := (apply_pos_iff sign exponent positive).mp above
    exact .inr ⟨mantissa, exponent, positive, rfl, canonical, by simp [Sign.apply]⟩

/-- A sum is rounded from the exact one, whatever the signs. -/
theorem add_holds (first : Holds left a) (second : Holds right b) :
    ∃ value, RoundsEvenly (a + b) value ∧ Holds (UnpackedFloat.add Format.binary64 left right) value := by
  rcases first with ⟨s₁, rfl, rfl⟩ | ⟨s₁, m₁, e₁, p₁, rfl, c₁, rfl⟩
  · rcases second with ⟨s₂, rfl, rfl⟩ | ⟨s₂, m₂, e₂, p₂, rfl, c₂, rfl⟩
    · refine ⟨0, by simpa using RoundsEvenly.rfl 0, .inl ?_⟩
      rw [UnpackedFloat.add]
      split <;> exact ⟨_, rfl, rfl⟩
    · exact ⟨_, by simpa using RoundsEvenly.rfl _, .inr ⟨s₂, m₂, e₂, p₂, rfl, c₂, rfl⟩⟩
  · rcases second with ⟨s₂, rfl, rfl⟩ | ⟨s₂, m₂, e₂, p₂, rfl, c₂, rfl⟩
    · exact ⟨_, by simpa using RoundsEvenly.rfl _, .inr ⟨s₁, m₁, e₁, p₁, rfl, c₁, rfl⟩⟩
    · obtain ⟨d₁, _, appended₁, scale₁, same₁, _⟩ := decreaseExponent_spec m₁ e₁ (min e₁ e₂)
      obtain ⟨d₂, _, appended₂, scale₂, same₂, _⟩ := decreaseExponent_spec m₂ e₂ (min e₁ e₂)
      obtain rfl := scale₁.trans (min_eq_right (min_le_left e₁ e₂))
      obtain rfl := scale₂.trans (min_eq_right (min_le_right e₁ e₂))
      obtain ⟨value, rounds, holds⟩ :=
        normalize_holds (s₁.apply d₁ + s₂.apply d₂) (min e₁ e₂) .positive
      refine ⟨value, ?_, ?_⟩
      · rwa [Int.cast_add, add_mul, apply_mul same₁, apply_mul same₂] at rounds
      · simpa only [UnpackedFloat.add, appended₁, appended₂] using holds

theorem Holds.neg (holds : Holds left a) : Holds left.neg (-a) := by
  rcases holds with ⟨sign, rfl, rfl⟩ | ⟨sign, mantissa, exponent, positive, rfl, canonical, rfl⟩
  · exact .inl ⟨_, rfl, neg_zero⟩
  · have negated : (-sign).apply mantissa = -sign.apply mantissa := by
      cases sign with
      | negative => exact (neg_neg (mantissa : ℤ)).symm
      | positive => rfl
    refine .inr ⟨-sign, mantissa, exponent, positive, rfl, canonical, ?_⟩
    rw [negated, Int.cast_neg, neg_mul]

theorem sub_holds (first : Holds left a) (second : Holds right b) :
    ∃ value, RoundsEvenly (a - b) value ∧ Holds (UnpackedFloat.sub Format.binary64 left right) value := by
  rcases first with ⟨s₁, rfl, rfl⟩ | ⟨s₁, m₁, e₁, p₁, rfl, c₁, rfl⟩
  · rcases second with ⟨s₂, rfl, rfl⟩ | ⟨s₂, m₂, e₂, p₂, rfl, c₂, rfl⟩
    · refine ⟨0, by simpa using RoundsEvenly.rfl 0, .inl ?_⟩
      rw [UnpackedFloat.sub]
      split <;> exact ⟨_, rfl, rfl⟩
    · have negated : Holds (UnpackedFloat.finite s₂ m₂ e₂ p₂) (s₂.apply m₂ * 2 ^ e₂) :=
        .inr ⟨s₂, m₂, e₂, p₂, rfl, c₂, rfl⟩
      exact ⟨_, by simpa using RoundsEvenly.rfl _, negated.neg⟩
  · rcases second with ⟨s₂, rfl, rfl⟩ | ⟨s₂, m₂, e₂, p₂, rfl, c₂, rfl⟩
    · exact ⟨_, by simpa using RoundsEvenly.rfl _, .inr ⟨s₁, m₁, e₁, p₁, rfl, c₁, rfl⟩⟩
    · obtain ⟨d₁, _, appended₁, scale₁, same₁, _⟩ := decreaseExponent_spec m₁ e₁ (min e₁ e₂)
      obtain ⟨d₂, _, appended₂, scale₂, same₂, _⟩ := decreaseExponent_spec m₂ e₂ (min e₁ e₂)
      obtain rfl := scale₁.trans (min_eq_right (min_le_left e₁ e₂))
      obtain rfl := scale₂.trans (min_eq_right (min_le_right e₁ e₂))
      obtain ⟨value, rounds, holds⟩ :=
        normalize_holds (s₁.apply d₁ - s₂.apply d₂) (min e₁ e₂) .positive
      refine ⟨value, ?_, ?_⟩
      · rwa [Int.cast_sub, sub_mul, apply_mul same₁, apply_mul same₂] at rounds
      · simpa only [UnpackedFloat.sub, appended₁, appended₂] using holds

/-- A product of stored numbers has digits enough to be rounded. -/
theorem mul_fits {m₁ m₂ : ℕ} {e₁ e₂ : ℤ} (first : Canonical m₁ e₁) (second : Canonical m₂ e₂)
    (p₁ : 0 < m₁) (p₂ : 0 < m₂) :
    e₁ + e₂ ≤ Format.binary64.targetExponent (totalExponent (m₁ * m₂) (e₁ + e₂)) := by
  have grows₁ : m₁ ≤ m₁ * m₂ := Nat.le_mul_of_pos_right m₁ p₂
  have grows₂ : m₂ ≤ m₁ * m₂ := Nat.le_mul_of_pos_left m₂ p₁
  have nonzero : m₁ * m₂ ≠ 0 := (Nat.mul_pos p₁ p₂).ne'
  have enough : 2 ^ 52 ≤ m₁ * m₂ → 52 ≤ (m₁ * m₂).log2 := (Nat.le_log2 nonzero).mpr
  have full₁ := first.full
  have full₂ := second.full
  rw [targetExponent_eq, totalExponent]
  omega

theorem mul_holds (first : Holds left a) (second : Holds right b) (nonneg : 0 ≤ a) (nonneg' : 0 ≤ b) :
    ∃ value, Rounds (a * b) value ∧ Holds (UnpackedFloat.mul Format.binary64 left right) value := by
  rcases first.nonneg_cases nonneg with ⟨s₁, rfl, rfl⟩ | ⟨m₁, e₁, p₁, rfl, c₁, rfl⟩
  · refine ⟨0, by simpa using Rounds.rfl 0, .inl ?_⟩
    rcases second.nonneg_cases nonneg' with ⟨s₂, rfl, rfl⟩ | ⟨m₂, e₂, p₂, rfl, c₂, rfl⟩ <;>
      exact ⟨_, rfl, rfl⟩
  · rcases second.nonneg_cases nonneg' with ⟨s₂, rfl, rfl⟩ | ⟨m₂, e₂, p₂, rfl, c₂, rfl⟩
    · exact ⟨0, by simpa using Rounds.rfl 0, .inl ⟨_, rfl, rfl⟩⟩
    · obtain ⟨value, rounds, holds⟩ := roundWithAccuracy_holds .positive
        (describes_exact (m₁ * m₂) (e₁ + e₂)) (mul_fits c₁ c₂ p₁ p₂)
      refine ⟨value, ?_, holds⟩
      rwa [Nat.cast_mul, zpow_add₀ (by norm_num), mul_mul_mul_comm] at rounds

/-- An inexact mantissa, from how what lies below it compares with a half. -/
theorem describes_inexact {mantissa : ℕ} {scale : ℤ} {fraction : ℚ} (some_ : 0 < fraction)
    (least : fraction < 1) :
    Describes (.ofMantissaAndAccuracy mantissa (.inexact (compare (2 * fraction) 1))) scale
      ((mantissa + fraction) * 2 ^ scale) := by
  have unit := two_zpow_pos scale
  have lower : (mantissa : ℚ) * 2 ^ scale ≤ (mantissa + fraction) * 2 ^ scale :=
    mul_le_mul_of_nonneg_right (by linarith) unit.le
  have upper : ((mantissa : ℚ) + fraction) * 2 ^ scale < (mantissa + 1) * 2 ^ scale :=
    mul_lt_mul_of_pos_right (by linarith) unit
  rcases lt_trichotomy (2 * fraction) 1 with less | same | greater
  · have under : (mantissa : ℚ) + fraction < mantissa + 1 / 2 := by linarith
    rw [compare_lt_iff_lt.mpr less]
    exact ⟨lower, upper, fun set => (by cases set), fun _ => mul_lt_mul_of_pos_right under unit,
      fun clear => (by cases clear)⟩
  · rw [compare_eq_iff_eq.mpr same]
    obtain rfl : fraction = 1 / 2 := by linarith
    exact ⟨lower, upper, fun _ => le_rfl, fun clear => (by cases clear), fun _ => le_rfl⟩
  · have beyond : (mantissa : ℚ) + 1 / 2 ≤ mantissa + fraction := by linarith
    rw [compare_gt_iff_gt.mpr greater]
    exact ⟨lower, upper, fun _ => mul_le_mul_of_nonneg_right beyond unit.le,
      fun clear => (by cases clear), fun clear => (by cases clear)⟩

theorem compare_natCast_rat (first second : ℕ) : compare (first : ℚ) second = compare first second := by
  rcases lt_trichotomy first second with less | same | greater
  · rw [compare_lt_iff_lt.mpr less, compare_lt_iff_lt.mpr (by exact_mod_cast less)]
  · rw [compare_eq_iff_eq.mpr same, compare_eq_iff_eq.mpr (by exact_mod_cast same)]
  · rw [compare_gt_iff_gt.mpr greater, compare_gt_iff_gt.mpr (by exact_mod_cast greater)]

theorem compare_div_self {first second : ℚ} (positive : 0 < second) :
    compare (first / second) 1 = compare first second := by
  rcases lt_trichotomy first second with less | same | greater
  · rw [compare_lt_iff_lt.mpr less, compare_lt_iff_lt.mpr ((div_lt_one positive).mpr less)]
  · rw [compare_eq_iff_eq.mpr same, compare_eq_iff_eq.mpr ((div_eq_one_iff_eq positive.ne').mpr same)]
  · rw [compare_gt_iff_gt.mpr greater, compare_gt_iff_gt.mpr ((one_lt_div positive).mpr greater)]

/-- The quotient of mantissas with the accuracy of its remainder. -/
theorem describes_quotient {m₁ m₂ : ℕ} (positive : 0 < m₂) (scale : ℤ) :
    Describes (.ofMantissaAndAccuracy (m₁ / m₂) (accuracyOfFraction (m₁ % m₂) m₂)) scale
      (m₁ / m₂ * 2 ^ scale) := by
  have divisor : (0 : ℚ) < m₂ := by exact_mod_cast positive
  have split : (m₁ : ℚ) / m₂ = (m₁ / m₂ : ℕ) + (m₁ % m₂ : ℕ) / m₂ := by
    rw [div_eq_iff divisor.ne', add_mul, div_mul_cancel₀ _ divisor.ne']
    exact_mod_cast (Nat.div_add_mod' m₁ m₂).symm
  rw [split, accuracyOfFraction]
  split
  · rename_i none
    rw [none, Nat.cast_zero, zero_div, add_zero]
    exact describes_exact (m₁ / m₂) scale
  · rename_i remains
    have positive' : (0 : ℚ) < (m₁ % m₂ : ℕ) := by exact_mod_cast Nat.pos_of_ne_zero remains
    have least : ((m₁ % m₂ : ℕ) : ℚ) < m₂ := by exact_mod_cast Nat.mod_lt m₁ positive
    have same : compare (2 * (m₁ % m₂)) m₂ = compare (2 * (((m₁ % m₂ : ℕ) : ℚ) / m₂)) 1 := by
      rw [← compare_natCast_rat, ← compare_div_self divisor, Nat.cast_mul, Nat.cast_two, mul_div_assoc]
    rw [same]
    exact describes_inexact (div_pos positive' divisor) ((div_lt_one divisor).mpr least)

/-- The shifted quotient has digits enough to be rounded. -/
theorem quotient_fits {m₁ m₂ amount : ℕ} {target total : ℤ} (p₁ : 0 < m₁) (p₂ : 0 < m₂)
    (digits : total = m₁.log2 - m₂.log2 + amount + target)
    (least : target ≤ Format.binary64.targetExponent total) :
    target ≤ Format.binary64.targetExponent (totalExponent (m₁ * 2 ^ amount / m₂) target) := by
  rw [targetExponent_eq] at least ⊢
  by_cases subnormal : target ≤ -1074
  · omega
  · have wide : 53 + m₂.log2 ≤ m₁.log2 + amount := by omega
    have full : 2 ^ 52 ≤ m₁ * 2 ^ amount / m₂ := by
      rw [Nat.le_div_iff_mul_le p₂]
      calc
        2 ^ 52 * m₂ ≤ 2 ^ 52 * 2 ^ (m₂.log2 + 1) :=
          Nat.mul_le_mul_left _ (@Nat.lt_log2_self m₂).le
        _ = 2 ^ (53 + m₂.log2) := by rw [← Nat.pow_add]; congr 1; omega
        _ ≤ 2 ^ (m₁.log2 + amount) := Nat.pow_le_pow_right (by norm_num) wide
        _ = 2 ^ m₁.log2 * 2 ^ amount := Nat.pow_add _ _ _
        _ ≤ m₁ * 2 ^ amount := Nat.mul_le_mul_right _ (Nat.log2_self_le p₁.ne')
    have filled : 52 ≤ (m₁ * 2 ^ amount / m₂).log2 :=
      (Nat.le_log2 (Nat.two_pow_pos 52 |>.trans_le full).ne').mpr full
    rw [totalExponent]
    omega

theorem div_holds (first : Holds left a) (second : Holds right b) (nonneg : 0 ≤ a) (positive : 0 < b) :
    ∃ value, Rounds (a / b) value ∧ Holds (UnpackedFloat.div Format.binary64 left right) value := by
  rcases second.nonneg_cases positive.le with ⟨_, _, rfl⟩ | ⟨m₂, e₂, p₂, rfl, c₂, rfl⟩
  · exact absurd positive (lt_irrefl 0)
  · rcases first.nonneg_cases nonneg with ⟨s₁, rfl, rfl⟩ | ⟨m₁, e₁, p₁, rfl, c₁, rfl⟩
    · exact ⟨0, by simpa using Rounds.rfl 0, .inl ⟨_, rfl, rfl⟩⟩
    · obtain ⟨target, known⟩ : ∃ target, min (e₁ - e₂) (Format.binary64.targetExponent
          (totalExponent m₁ e₁ - totalExponent m₂ e₂)) = target := ⟨_, rfl⟩
      obtain ⟨amount, shifted⟩ : ∃ amount : ℕ, e₁ - e₂ = amount + target :=
        ⟨(e₁ - e₂ - target).toNat, by omega⟩
      have shift : (e₁ - e₂ - target).toNat = amount := by omega
      have fits := @quotient_fits m₁ m₂ amount target (totalExponent m₁ e₁ - totalExponent m₂ e₂) p₁ p₂
        (by rw [totalExponent, totalExponent]; omega) (known ▸ min_le_right _ _)
      obtain ⟨value, rounds, holds⟩ :=
        roundWithAccuracy_holds .positive (@describes_quotient (m₁ * 2 ^ amount) m₂ p₂ target) fits
      refine ⟨value, ?_, ?_⟩
      · have exact_ : (m₁ : ℚ) * 2 ^ e₁ / (m₂ * 2 ^ e₂) = (m₁ * 2 ^ amount : ℕ) / m₂ * 2 ^ target := by
          have split : (2 : ℚ) ^ e₁ = 2 ^ amount * 2 ^ target * 2 ^ e₂ := by
            rw [two_pow_mul_zpow, ← zpow_add₀ (by norm_num), ← shifted, sub_add_cancel]
          have divisor : (m₂ : ℚ) ≠ 0 := by exact_mod_cast p₂.ne'
          have scaled := (two_zpow_pos e₂).ne'
          rw [split, div_mul_eq_mul_div, div_eq_div_iff (mul_ne_zero divisor scaled) divisor]
          push_cast
          ring
        rwa [exact_]
      · simp only [UnpackedFloat.div, divCore, known, shift, Nat.shiftLeft_eq]
        exact holds

end Operations

section Values

variable {x y : Float} {a b : ℚ}

theorem representable_large : Representable (2 ^ 200) := by
  simpa using @representable_two_zpow 200 (by norm_num)

theorem toRational?_of_rounds {unpacked : UnpackedFloat} {result : ℚ} (holds : Holds unpacked result)
    (rounds : Rounds a result) (nonneg : 0 ≤ a) (range : a ≤ 2 ^ 200) :
    (Float.ofModel (Model.pack unpacked)).toRational? = some result := by
  have above := rounds.nonneg nonneg
  exact toRational?_pack holds (rounds.below _ representable_large range)
    ((neg_nonpos.mpr above).trans (by positivity))

theorem add_rounds (first : x.toRational? = some a) (second : y.toRational? = some b)
    (nonneg : 0 ≤ a + b) (range : a + b ≤ 2 ^ 200) :
    ∃ result, (x + y).toRational? = some result ∧ Rounds (a + b) result := by
  obtain ⟨result, rounds, holds⟩ := add_holds (unpack_holds first) (unpack_holds second)
  exact ⟨result, toRational?_of_rounds holds rounds.above nonneg range, rounds.above⟩

theorem sub_rounds (first : x.toRational? = some a) (second : y.toRational? = some b)
    (nonneg : 0 ≤ a) (nonneg' : 0 ≤ b) (range : a ≤ 2 ^ 200) (range' : b ≤ 2 ^ 200) :
    ∃ result, (x - y).toRational? = some result ∧ Rounds (a - b) result := by
  obtain ⟨result, rounds, holds⟩ := sub_holds (unpack_holds first) (unpack_holds second)
  refine ⟨result, toRational?_pack holds ?_ ?_, rounds.above⟩
  · exact rounds.above.below _ representable_large (by linarith)
  · exact rounds.below.below _ representable_large (by linarith)

theorem mul_rounds (first : x.toRational? = some a) (second : y.toRational? = some b)
    (nonneg : 0 ≤ a) (nonneg' : 0 ≤ b) (range : a * b ≤ 2 ^ 200) :
    ∃ result, (x * y).toRational? = some result ∧ Rounds (a * b) result := by
  obtain ⟨result, rounds, holds⟩ := mul_holds (unpack_holds first) (unpack_holds second) nonneg nonneg'
  exact ⟨result, toRational?_of_rounds holds rounds (mul_nonneg nonneg nonneg') range, rounds⟩

theorem div_rounds (first : x.toRational? = some a) (second : y.toRational? = some b)
    (nonneg : 0 ≤ a) (positive : 0 < b) (range : a / b ≤ 2 ^ 200) :
    ∃ result, (x / y).toRational? = some result ∧ Rounds (a / b) result := by
  obtain ⟨result, rounds, holds⟩ := div_holds (unpack_holds first) (unpack_holds second) nonneg positive
  exact ⟨result, toRational?_of_rounds holds rounds (div_nonneg nonneg positive.le) range, rounds⟩

theorem toFloat_rounds (n : UInt64) :
    ∃ result, n.toFloat.toRational? = some result ∧ Rounds n.toNat result := by
  obtain ⟨result, rounds, holds⟩ := normalize_holds n.toNat 0 .positive
  have rounds : Rounds n.toNat result := by simpa using rounds.above
  have small : (n.toNat : ℚ) ≤ 2 ^ 200 := by
    have bounded : n.toNat ≤ 2 ^ 200 := n.toNat_lt.le.trans (by norm_num)
    exact_mod_cast bounded
  exact ⟨result, toRational?_of_rounds holds rounds (Nat.cast_nonneg _) small, rounds⟩

theorem ofNat_rounds {n : ℕ} (small : n ≤ 2 ^ 200) :
    ∃ result, (Float.ofNat n).toRational? = some result ∧ Rounds n result := by
  have range : (n : ℚ) ≤ 2 ^ 200 := by exact_mod_cast small
  by_cases fast : n < 2 ^ 53
  · have one : (Float.ofBits 0x3FF0000000000000).toRational? = some 1 := by decide +kernel
    obtain ⟨result, known, rounds⟩ := toFloat_rounds n.toUInt64
    have same : n.toUInt64.toNat = n := Nat.mod_eq_of_lt (fast.trans (by norm_num))
    rw [same] at rounds
    obtain rfl := rounds.eq_of_representable (representable_natCast fast)
    obtain ⟨product, found, exact_⟩ := mul_rounds known one (Nat.cast_nonneg n) (by norm_num)
      (by simpa using range)
    have taken : Float.ofNat n = n.toUInt64.toFloat * Float.ofBits 0x3FF0000000000000 := by
      rw [Float.ofNat, OfScientific.ofScientific, instOfScientificFloat]
      dsimp only
      rw [Float.ofScientific, dif_pos ⟨fast, by norm_num⟩]
      rfl
    rw [taken]
    exact ⟨product, found, by simpa using exact_⟩
  · have nonzero : n ≠ 0 := by omega
    have wide : 53 ≤ n.log2 := (Nat.le_log2 nonzero).mpr (not_lt.mp fast)
    have fits : (-53 : ℤ) ≤ Format.binary64.targetExponent (totalExponent (n * 2 ^ 53) (-53)) := by
      rw [targetExponent_eq, totalExponent, log2_mul_two_pow nonzero]
      omega
    obtain ⟨result, rounds, holds⟩ :=
      roundWithAccuracy_holds .positive (describes_exact (n * 2 ^ 53) (-53)) fits
    have value : ((n * 2 ^ 53 : ℕ) : ℚ) * 2 ^ (-53 : ℤ) = n := by
      rw [Nat.cast_mul, Nat.cast_pow, Nat.cast_two, mul_assoc, two_pow_mul_zpow]
      simp
    rw [value] at rounds
    have taken : Float.ofNat n = Float.ofModel (Model.pack
        (roundWithAccuracy Format.binary64 .positive (n * 2 ^ 53) (-53) .exact)) := by
      have slow : ¬ (n < 2 ^ 53 ∧ 0 ≤ 22) := fun conditions => fast conditions.1
      rw [Float.ofNat, OfScientific.ofScientific, instOfScientificFloat]
      dsimp only
      rw [Float.ofScientific, dif_neg slow]
      have bounded : ¬ Int.ofNat 0 > 2 ^ Format.binary64.exponentBits := by decide
      have above : ¬ Int.ofNat 0 < -((2 ^ Format.binary64.exponentBits : ℤ) + n.log2) := by
        change ¬ (0 : ℤ) < -(2 ^ 11 + (n.log2 : ℤ))
        omega
      simp only [Model.ofScientific, UnpackedFloat.ofScientific, dif_neg nonzero, Bool.false_eq_true,
        if_false, if_neg bounded, if_neg above]
      rw [if_pos (by decide), UnpackedFloat.mul]
      have whole : n <<< Format.binary64.mantissaBits * 10 ^ (Int.ofNat 0).toNat = n * 2 ^ 53 := by
        change n <<< 53 * 10 ^ 0 = n * 2 ^ 53
        rw [Nat.shiftLeft_eq, Nat.pow_zero, Nat.mul_one]
      rw [whole]
      rfl
    rw [taken]
    exact ⟨result, toRational?_of_rounds holds rounds (Nat.cast_nonneg n) range, rounds⟩

theorem toRational?_ofNat {n : ℕ} (small : n < 2 ^ 53) : (Float.ofNat n).toRational? = some (n : ℚ) := by
  obtain ⟨result, known, rounds⟩ := @ofNat_rounds n (small.le.trans (by norm_num))
  rw [known, rounds.eq_of_representable (representable_natCast small)]

theorem ofInt_rounds {n : ℤ} (nonneg : 0 ≤ n) (small : n ≤ 2 ^ 200) :
    ∃ result, (Float.ofInt n).toRational? = some result ∧ Rounds n result := by
  obtain ⟨n, rfl⟩ := Int.eq_ofNat_of_zero_le nonneg
  exact ofNat_rounds (by exact_mod_cast small)

theorem representable_of_known (known : x.toRational? = some a) (nonneg : 0 ≤ a) : Representable a := by
  rcases (unpack_holds known).nonneg_cases nonneg with
      ⟨_, _, rfl⟩ | ⟨mantissa, exponent, _, _, canonical, rfl⟩
  · exact representable_zero
  · exact ⟨mantissa, exponent, canonical.bounded, canonical.normal, rfl⟩

theorem isFinite_of_known (known : x.toRational? = some a) : x.isFinite = true := by
  change x.toModel.unpack.isFinite = true
  rcases toRational?_cases known with ⟨_, unpacked, _⟩ | ⟨_, _, _, _, unpacked, _⟩ <;>
    rw [unpacked] <;> rfl

theorem nonpos_iff (known : x.toRational? = some a) : x ≤ 0 ↔ a ≤ 0 := by
  have compared : x ≤ 0 ↔ UnpackedFloat.le x.toModel.unpack (.zero .positive) = true := by
    change Float.le x 0 = true ↔ _
    simp only [Float.le, decide_eq_true_eq]
    exact Iff.rfl
  rw [compared]
  rcases toRational?_cases known with
      ⟨sign, unpacked, rfl⟩ | ⟨sign, mantissa, exponent, positive, unpacked, rfl⟩
  · rw [unpacked]
    cases sign <;> exact iff_of_true rfl le_rfl
  · rw [unpacked, ← not_lt, apply_pos_iff sign exponent positive]
    cases sign with
    | positive => exact iff_of_false Bool.false_ne_true (by simp)
    | negative => exact iff_of_true rfl (by simp)

/-- `max` with zero, as the operations round. -/
theorem max_zero_known (known : x.toRational? = some a) :
    (max x 0).toRational? = some (max a 0) := by
  have zero : (0 : Float).toRational? = some 0 := by
    have exact : (Float.ofNat 0).toRational? = some ((0 : ℕ) : ℚ) := toRational?_ofNat (by norm_num)
    rwa [Nat.cast_zero] at exact
  change (if x ≤ 0 then 0 else x).toRational? = _
  by_cases below : x ≤ 0
  · rw [if_pos below, zero, max_eq_right ((nonpos_iff known).mp below)]
  · rw [if_neg below, known, max_eq_left (le_of_not_ge fun le => below ((nonpos_iff known).mpr le))]

/-- The floats of two numbers are in their order. -/
theorem toFloat_mono {first second : UInt64} (ordered : first ≤ second)
    (known : first.toFloat.toRational? = some a) (known' : second.toFloat.toRational? = some b) :
    a ≤ b := by
  obtain ⟨_, found, rounds⟩ := toFloat_rounds first
  obtain ⟨_, found', rounds'⟩ := toFloat_rounds second
  obtain rfl := Option.some.inj (known.symm.trans found)
  obtain rfl := Option.some.inj (known'.symm.trans found')
  rcases eq_or_lt_of_le (UInt64.le_iff_toNat_le.mp ordered) with same | less
  · obtain rfl := UInt64.toNat_inj.mp same
    rw [known] at known'
    exact (Option.some.inj known').le
  · exact rounds.mono rounds' (representable_of_known known (rounds.nonneg (Nat.cast_nonneg _)))
      (representable_of_known known' (rounds'.nonneg (Nat.cast_nonneg _))) (by exact_mod_cast less)

end Values

end Float
