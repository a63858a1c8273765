import GlancesRs.Data.Binary64
import Mathlib

/-! How binary64 rounds: to a number of the format that no other one is nearer
than. What is rounded lies on the same side of every number of the format, which
is enough to bound what a computation in floats can publish. -/

namespace Float

open Model Model.UnpackedFloat

/-- The nonnegative numbers of the format, were its exponents unbounded above. -/
def Representable (number : ℚ) : Prop :=
  ∃ (mantissa : ℕ) (exponent : ℤ), mantissa < 2 ^ 53 ∧ -1074 ≤ exponent ∧
    number = mantissa * 2 ^ exponent

/-- No number of the format is nearer to an exact value than what it is rounded to. -/
def Rounds (exact result : ℚ) : Prop :=
  ∀ number, Representable number → |exact - result| ≤ |exact - number|

section Representable

variable {exact exact' result result' : ℚ}

theorem representable_natCast {whole : ℕ} (small : whole < 2 ^ 53) : Representable whole :=
  ⟨whole, 0, small, by norm_num, by simp⟩

theorem representable_two_zpow {exponent : ℤ} (normal : -1074 ≤ exponent) :
    Representable (2 ^ exponent) :=
  ⟨1, exponent, by norm_num, normal, by simp⟩

theorem representable_zero : Representable 0 := by
  simpa using @representable_natCast 0 (by norm_num)

theorem Rounds.rfl (exact : ℚ) : Rounds exact exact := fun _ _ => by simp

theorem Rounds.below (rounds : Rounds exact result) (bound : ℚ) (representable : Representable bound)
    (within : exact ≤ bound) : result ≤ bound := by
  by_contra beyond
  have nearest := rounds bound representable
  rw [abs_of_nonpos (by linarith), abs_of_nonpos (by linarith)] at nearest
  linarith

theorem Rounds.above (rounds : Rounds exact result) (bound : ℚ) (representable : Representable bound)
    (within : bound ≤ exact) : bound ≤ result := by
  by_contra beyond
  have nearest := rounds bound representable
  rw [abs_of_nonneg (by linarith), abs_of_nonneg (by linarith)] at nearest
  linarith

/-- Rounding keeps the order of different values. -/
theorem Rounds.mono (rounds : Rounds exact result) (rounds' : Rounds exact' result')
    (representable : Representable result) (representable' : Representable result')
    (ordered : exact < exact') : result ≤ result' := by
  by_contra crossed
  -- Both exact values would have to lie on the far side of the middle.
  have first := rounds result' representable'
  have second := rounds' result representable
  have middle : (result + result') / 2 ≤ exact := by
    rcases abs_cases (exact - result) with ⟨_, _⟩ | ⟨_, _⟩ <;>
      rcases abs_cases (exact - result') with ⟨_, _⟩ | ⟨_, _⟩ <;> linarith
  have middle' : exact' ≤ (result + result') / 2 := by
    rcases abs_cases (exact' - result) with ⟨_, _⟩ | ⟨_, _⟩ <;>
      rcases abs_cases (exact' - result') with ⟨_, _⟩ | ⟨_, _⟩ <;> linarith
  linarith

theorem Rounds.eq_of_representable (rounds : Rounds exact result)
    (representable : Representable exact) : result = exact :=
  le_antisymm (rounds.below exact representable le_rfl) (rounds.above exact representable le_rfl)

theorem Rounds.nonneg (rounds : Rounds exact result) (positive : 0 ≤ exact) : 0 ≤ result :=
  rounds.above 0 representable_zero positive

end Representable

section Digits

variable {em : ExtendedMantissa} {exponent : ℤ} {exact : ℚ}

/-- A mantissa holds the digits of a value above an exponent, its round bit tells
whether half a unit lies below them, and a clear sticky bit that nothing else does. -/
structure Describes (em : ExtendedMantissa) (exponent : ℤ) (exact : ℚ) : Prop where
  lower : em.mantissa * 2 ^ exponent ≤ exact
  upper : exact < (em.mantissa + 1) * 2 ^ exponent
  set : em.roundBit = true → (em.mantissa + 1 / 2) * 2 ^ exponent ≤ exact
  clear : em.roundBit = false → exact < (em.mantissa + 1 / 2) * 2 ^ exponent
  held : em.stickyBit = false →
    exact ≤ (em.mantissa + if em.roundBit then 1 / 2 else 0) * 2 ^ exponent

theorem two_zpow_pos (exponent : ℤ) : (0 : ℚ) < 2 ^ exponent := zpow_pos (by norm_num) exponent

theorem Describes.shiftRightOne (describes : Describes em exponent exact) :
    Describes em.shiftRightOne (exponent + 1) exact := by
  obtain ⟨mantissa, roundBit, stickyBit⟩ := em
  obtain ⟨lower, upper, _, _, held⟩ := describes
  have unit := two_zpow_pos exponent
  have doubled : (2 : ℚ) ^ (exponent + 1) = 2 ^ exponent * 2 := zpow_add_one₀ (by norm_num) exponent
  have halved : (mantissa : ℚ) = 2 * (mantissa / 2 : ℕ) + (mantissa % 2 : ℕ) := by
    exact_mod_cast (Nat.div_add_mod mantissa 2).symm
  -- Nothing is below the digits shifted out if neither bit was set.
  have nothing : (roundBit || stickyBit) = false → exact ≤ mantissa * 2 ^ exponent := by
    intro unset
    obtain ⟨rfl, rfl⟩ := Bool.or_eq_false_iff.mp unset
    simpa using held rfl
  simp only at lower upper
  rw [halved] at lower upper nothing
  simp only [ExtendedMantissa.shiftRightOne]
  rcases Nat.mod_two_eq_zero_or_one mantissa with even | odd
  · rw [even, Nat.cast_zero] at lower upper nothing
    refine ⟨?_, ?_, fun set => ?_, fun _ => ?_, fun unset => ?_⟩
    · simp only [doubled]
      linarith
    · simp only [doubled]
      linarith
    · simp [even] at set
    · simp only [doubled]
      linarith
    · have below := nothing unset
      simp only [even, doubled]
      simp
      linarith
  · rw [odd, Nat.cast_one] at lower upper nothing
    refine ⟨?_, ?_, fun _ => ?_, fun clear => ?_, fun unset => ?_⟩
    · simp only [doubled]
      linarith
    · simp only [doubled]
      linarith
    · simp only [doubled]
      linarith
    · simp [odd] at clear
    · have below := nothing unset
      simp only [odd, doubled]
      simp
      linarith

theorem Describes.shiftRight (describes : Describes em exponent exact) (amount : ℕ) :
    Describes (em >>> amount) (exponent + amount) exact := by
  change Describes (amount.repeat ExtendedMantissa.shiftRightOne em) _ _
  induction amount with
  | zero => simpa [Nat.repeat] using describes
  | succ amount ih =>
      rw [Nat.repeat, Nat.cast_succ, ← add_assoc]
      exact ih.shiftRightOne

theorem roundedMantissa_cases (em : ExtendedMantissa) :
    em.roundedMantissa = em.mantissa ∨
      (em.roundBit = true ∧ em.roundedMantissa = em.mantissa + 1) := by
  obtain ⟨mantissa, _ | _, _ | _⟩ := em
  · exact .inl rfl
  · exact .inl rfl
  · rcases Nat.mod_two_eq_zero_or_one mantissa with even | odd
    · exact .inl (by simp [ExtendedMantissa.roundedMantissa, ExtendedMantissa.accuracy,
        Accuracy.roundToNearestEven, even])
    · exact .inr ⟨rfl, by simp [ExtendedMantissa.roundedMantissa, ExtendedMantissa.accuracy,
        Accuracy.roundToNearestEven, odd]⟩
  · exact .inr ⟨rfl, rfl⟩

/-- The rounded mantissa is half a unit away at most. -/
theorem Describes.near (describes : Describes em exponent exact) :
    |exact - em.roundedMantissa * 2 ^ exponent| ≤ 2 ^ exponent / 2 := by
  obtain ⟨lower, upper, set, clear, held⟩ := describes
  have unit := two_zpow_pos exponent
  rw [abs_le]
  obtain ⟨mantissa, _ | _, sticky⟩ := em
  · have below := clear rfl
    have same : ExtendedMantissa.roundedMantissa ⟨mantissa, false, sticky⟩ = mantissa := by
      cases sticky <;> rfl
    simp only at lower below
    rw [same]
    exact ⟨by linarith, by linarith⟩
  · have above := set rfl
    simp only at above upper
    cases sticky with
    | true =>
        have next : ExtendedMantissa.roundedMantissa ⟨mantissa, true, true⟩ = mantissa + 1 := rfl
        rw [next, Nat.cast_succ]
        exact ⟨by linarith, by linarith⟩
    | false =>
        have tie := held rfl
        simp only [if_true] at tie
        rcases roundedMantissa_cases ⟨mantissa, true, false⟩ with same | ⟨_, next⟩
        · rw [same]
          exact ⟨by linarith, by linarith⟩
        · rw [next, Nat.cast_succ]
          exact ⟨by linarith, by linarith⟩

/-- No other point of its grid is nearer. -/
theorem Describes.nearest (describes : Describes em exponent exact) (whole : ℕ) :
    |exact - em.roundedMantissa * 2 ^ exponent| ≤ |exact - whole * 2 ^ exponent| := by
  have near := describes.near
  by_cases same : whole = em.roundedMantissa
  · rw [same]
  · have unit := two_zpow_pos exponent
    have apart : (1 : ℚ) ≤ |(whole : ℚ) - em.roundedMantissa| := by
      have different : (1 : ℤ) ≤ |(whole : ℤ) - em.roundedMantissa| :=
        Int.one_le_abs (sub_ne_zero.mpr (by exact_mod_cast same))
      exact_mod_cast different
    have scaled : 2 ^ exponent ≤ |(whole : ℚ) * 2 ^ exponent - em.roundedMantissa * 2 ^ exponent| := by
      rw [← sub_mul, abs_mul, abs_of_pos unit]
      exact le_mul_of_one_le_left unit.le apart
    have through := abs_sub_le ((whole : ℚ) * 2 ^ exponent) exact (em.roundedMantissa * 2 ^ exponent)
    rw [abs_sub_comm ((whole : ℚ) * 2 ^ exponent) exact] at through
    linarith

theorem Describes.le_mantissa (describes : Describes em exponent exact) {bound : ℕ}
    (within : bound * 2 ^ exponent ≤ exact) : bound ≤ em.mantissa := by
  have scaled : (bound : ℚ) * 2 ^ exponent < (em.mantissa + 1) * 2 ^ exponent :=
    within.trans_lt describes.upper
  have less := lt_of_mul_lt_mul_right scaled (two_zpow_pos exponent).le
  exact Nat.lt_succ_iff.mp (by exact_mod_cast less)

theorem mantissa_le_rounded (em : ExtendedMantissa) : em.mantissa ≤ em.roundedMantissa := by
  rcases roundedMantissa_cases em with same | ⟨_, next⟩ <;> omega

end Digits

section Round

variable {em : ExtendedMantissa} {exponent target : ℤ} {exact : ℚ} {mantissa : ℕ} {accuracy : Accuracy}
variable {sign : Sign}

/-- A mantissa and exponent the format stores as they are. -/
structure Canonical (mantissa : ℕ) (exponent : ℤ) : Prop where
  bounded : mantissa < 2 ^ 53
  normal : -1074 ≤ exponent
  full : 2 ^ 52 ≤ mantissa ∨ exponent = -1074

theorem targetExponent_eq (total : ℤ) :
    Format.binary64.targetExponent total = max (total - 53) (-1074) := by
  simp [Format.targetExponent, Format.mantissaBits, Format.minExponent]

theorem Describes.lt_two_zpow
    (describes : Describes (.ofMantissaAndAccuracy mantissa accuracy) exponent exact) :
    exact < 2 ^ totalExponent mantissa exponent := by
  have held : (ExtendedMantissa.ofMantissaAndAccuracy mantissa accuracy).mantissa = mantissa := by
    rcases accuracy with _ | (_ | _ | _) <;> rfl
  have upper := describes.upper
  rw [held] at upper
  have digits : (mantissa : ℚ) + 1 ≤ 2 ^ (mantissa.log2 + 1) := by
    exact_mod_cast Nat.succ_le_of_lt (@Nat.lt_log2_self mantissa)
  have total : (2 : ℚ) ^ totalExponent mantissa exponent =
      2 ^ (mantissa.log2 + 1) * 2 ^ exponent := by
    rw [totalExponent, zpow_add₀ (by norm_num)]
    norm_cast
  rw [total]
  exact upper.trans_le (mul_le_mul_of_nonneg_right digits (two_zpow_pos exponent).le)

theorem Describes.two_zpow_le
    (describes : Describes (.ofMantissaAndAccuracy mantissa accuracy) exponent exact)
    (nonzero : mantissa ≠ 0) : 2 ^ (totalExponent mantissa exponent - 1) ≤ exact := by
  have held : (ExtendedMantissa.ofMantissaAndAccuracy mantissa accuracy).mantissa = mantissa := by
    rcases accuracy with _ | (_ | _ | _) <;> rfl
  have lower := describes.lower
  rw [held] at lower
  have digits : (2 : ℚ) ^ mantissa.log2 ≤ mantissa := by exact_mod_cast Nat.log2_self_le nonzero
  have total : (2 : ℚ) ^ (totalExponent mantissa exponent - 1) = 2 ^ mantissa.log2 * 2 ^ exponent := by
    have shifted : totalExponent mantissa exponent - 1 = (mantissa.log2 : ℤ) + exponent := by
      rw [totalExponent]
      omega
    rw [shifted, zpow_add₀ (by norm_num)]
    norm_cast
  rw [total]
  exact (mul_le_mul_of_nonneg_right digits (two_zpow_pos exponent).le).trans lower

theorem two_pow_mul_zpow (digits : ℕ) (exponent : ℤ) :
    (2 : ℚ) ^ digits * 2 ^ exponent = 2 ^ (digits + exponent) := by
  rw [zpow_add₀ (by norm_num), zpow_natCast]

theorem zpow_le_zpow {low high : ℤ} (ordered : low ≤ high) : (2 : ℚ) ^ low ≤ 2 ^ high :=
  zpow_le_zpow_right₀ (by norm_num) ordered

/-- The first shift leaves 53 digits, or as many as lie above the least exponent. -/
theorem shiftToTargetExponent_describes
    (describes : Describes (.ofMantissaAndAccuracy mantissa accuracy) exponent exact)
    (fits : exponent ≤ Format.binary64.targetExponent (totalExponent mantissa exponent)) :
    ∃ em target, shiftToTargetExponent Format.binary64 mantissa exponent accuracy = (em, target) ∧
      Describes em target exact ∧ Canonical em.mantissa target := by
  obtain ⟨target, known⟩ : ∃ target,
      Format.binary64.targetExponent (totalExponent mantissa exponent) = target := ⟨_, rfl⟩
  have reached : exponent + ((target - exponent).toNat : ℤ) = target := by omega
  have shifted := describes.shiftRight (target - exponent).toNat
  rw [reached] at shifted
  refine ⟨_, target, ?_, shifted, ?_⟩
  · simp only [shiftToTargetExponent, shiftToExponent, known, reached]
  · rw [targetExponent_eq] at known
    refine ⟨?_, by omega, ?_⟩
    · have beyond : exact < 2 ^ 53 * 2 ^ target := by
        rw [two_pow_mul_zpow]
        exact describes.lt_two_zpow.trans_le (zpow_le_zpow (by push_cast; omega))
      exact_mod_cast lt_of_mul_lt_mul_right (shifted.lower.trans_lt beyond) (two_zpow_pos target).le
    · by_cases least : target = -1074
      · exact .inr least
      · have nonzero : mantissa ≠ 0 := by
          intro zero
          simp only [zero, totalExponent, Nat.log2_zero] at known fits
          omega
        refine .inl (shifted.le_mantissa ?_)
        refine le_trans ?_ (describes.two_zpow_le nonzero)
        rw [Nat.cast_pow, Nat.cast_two, two_pow_mul_zpow]
        exact zpow_le_zpow (by push_cast; omega)

/-- A number of a coarser scale is on the grid. -/
theorem grid_of_coarser (digits : ℕ) {scale : ℤ} (above : target ≤ scale) :
    ∃ whole : ℕ, (digits : ℚ) * 2 ^ scale = whole * 2 ^ target := by
  obtain ⟨power, rfl⟩ : ∃ power : ℕ, scale = power + target :=
    ⟨(scale - target).toNat, by omega⟩
  exact ⟨digits * 2 ^ power, by rw [← two_pow_mul_zpow]; push_cast; exact (mul_assoc _ _ _).symm⟩

/-- A number of a finer scale has too few digits to reach a full mantissa. -/
theorem finer_lt (full : 2 ^ 52 ≤ mantissa) {digits : ℕ} {scale : ℤ} (bounded : digits < 2 ^ 53)
    (below : scale < target) : (digits : ℚ) * 2 ^ scale < mantissa * 2 ^ target := by
  have small : (digits : ℚ) * 2 ^ scale < 2 ^ 53 * 2 ^ scale :=
    mul_lt_mul_of_pos_right (by exact_mod_cast bounded) (two_zpow_pos scale)
  have large : (2 : ℚ) ^ 52 * 2 ^ target ≤ mantissa * 2 ^ target :=
    mul_le_mul_of_nonneg_right (by exact_mod_cast full) (two_zpow_pos target).le
  refine (small.trans_le ?_).trans_le large
  rw [two_pow_mul_zpow, two_pow_mul_zpow]
  exact zpow_le_zpow (by push_cast; omega)

/-- The rounded digits are nearest for the whole format. -/
theorem Describes.rounds (describes : Describes em target exact)
    (canonical : Canonical em.mantissa target) :
    Rounds exact (em.roundedMantissa * 2 ^ target) := by
  intro number representable
  obtain ⟨digits, scale, bounded, normal, rfl⟩ := representable
  rcases le_or_gt target scale with above | below
  · obtain ⟨whole, same⟩ := @grid_of_coarser target digits scale above
    rw [same]
    exact describes.nearest whole
  · -- A finer number lies below the least full mantissa, which is on the grid.
    have full : (2 : ℚ) ^ 52 ≤ em.mantissa := by
      exact_mod_cast canonical.full.resolve_right (by omega)
    have least := describes.nearest (2 ^ 52)
    have smaller := @finer_lt target (2 ^ 52) le_rfl digits scale bounded below
    have held : (2 : ℚ) ^ 52 * 2 ^ target ≤ exact :=
      (mul_le_mul_of_nonneg_right full (two_zpow_pos target).le).trans describes.lower
    rw [Nat.cast_pow, Nat.cast_two] at least smaller
    rw [abs_of_nonneg (sub_nonneg.mpr held)] at least
    rw [abs_of_nonneg (by linarith : 0 ≤ exact - digits * 2 ^ scale)]
    linarith

theorem log2_lt_iff {bits : ℕ} (some_ : 0 < bits) : mantissa.log2 < bits ↔ mantissa < 2 ^ bits := by
  rcases Nat.eq_zero_or_pos mantissa with rfl | positive
  · exact iff_of_true (by simpa using some_) (Nat.two_pow_pos bits)
  · exact Nat.log2_lt positive.ne'

/-- The second shift only takes up a carry into a 54th digit. -/
theorem shift_rounded (canonical : Canonical em.mantissa target) :
    ∃ final exponent, shiftToTargetExponent Format.binary64 em.roundedMantissa target .exact =
        (final, exponent) ∧ Canonical final.mantissa exponent ∧
      (final.mantissa : ℚ) * 2 ^ exponent = em.roundedMantissa * 2 ^ target := by
  obtain ⟨bounded, normal, full⟩ := canonical
  have raised := mantissa_le_rounded em
  by_cases fits : em.roundedMantissa < 2 ^ 53
  · have digits := (log2_lt_iff (by norm_num)).mpr fits
    have still : (Format.binary64.targetExponent (totalExponent em.roundedMantissa target) -
        target).toNat = 0 := by
      rw [targetExponent_eq, totalExponent]
      omega
    refine ⟨.ofMantissaAndAccuracy em.roundedMantissa .exact, target, ?_, ?_, rfl⟩
    · simp only [shiftToTargetExponent, shiftToExponent, still]
      simp [HShiftRight.hShiftRight, Nat.repeat]
    · exact ⟨fits, normal, full.imp_left fun filled => filled.trans raised⟩
  · have carried : em.roundedMantissa = 2 ^ 53 := by
      rcases roundedMantissa_cases em with same | ⟨_, next⟩ <;> omega
    have once : (Format.binary64.targetExponent (totalExponent (2 ^ 53) target) - target).toNat = 1 := by
      rw [targetExponent_eq, totalExponent, Nat.log2_two_pow]
      omega
    refine ⟨{ mantissa := 2 ^ 52, roundBit := false, stickyBit := false }, target + 1, ?_, ?_, ?_⟩
    · rw [carried]
      simp only [shiftToTargetExponent, shiftToExponent, once]
      rfl
    · exact ⟨by norm_num, by omega, .inl le_rfl⟩
    · rw [carried, zpow_add_one₀ (by norm_num)]
      push_cast
      linarith

/-- The number a finite unpacked float in canonical form stands for. -/
def Holds (unpacked : UnpackedFloat) (value : ℚ) : Prop :=
  (∃ sign, unpacked = .zero sign ∧ value = 0) ∨
  ∃ sign mantissa exponent positive, unpacked = .finite sign mantissa exponent positive ∧
    Canonical mantissa exponent ∧ value = sign.apply mantissa * 2 ^ exponent

def signed : Sign → ℚ → ℚ
  | .positive, value => value
  | .negative, value => -value

theorem roundWithAccuracy_holds (sign : Sign)
    (describes : Describes (.ofMantissaAndAccuracy mantissa accuracy) exponent exact)
    (fits : exponent ≤ Format.binary64.targetExponent (totalExponent mantissa exponent)) :
    ∃ result, Rounds exact result ∧
      Holds (roundWithAccuracy Format.binary64 sign mantissa exponent accuracy) (signed sign result) := by
  obtain ⟨em, target, shifted, digits, canonical⟩ := shiftToTargetExponent_describes describes fits
  obtain ⟨final, scale, taken, stored, same⟩ := shift_rounded canonical
  refine ⟨final.mantissa * 2 ^ scale, same ▸ digits.rounds canonical, ?_⟩
  simp only [roundWithAccuracy, shifted, taken]
  split
  · rename_i zero
    refine .inl ⟨sign, rfl, ?_⟩
    cases sign <;> simp [signed, zero]
  · refine .inr ⟨sign, final.mantissa, scale, _, rfl, stored, ?_⟩
    cases sign <;> simp [signed, Sign.apply]

theorem describes_exact (mantissa : ℕ) (exponent : ℤ) :
    Describes (.ofMantissaAndAccuracy mantissa .exact) exponent (mantissa * 2 ^ exponent) where
  lower := le_rfl
  upper := mul_lt_mul_of_pos_right (lt_add_one _) (two_zpow_pos exponent)
  set impossible := by cases impossible
  clear _ := mul_lt_mul_of_pos_right (lt_add_of_pos_right _ (by norm_num)) (two_zpow_pos exponent)
  held _ := by simp [ExtendedMantissa.ofMantissaAndAccuracy]

theorem log2_mul_two_pow (nonzero : mantissa ≠ 0) (amount : ℕ) :
    (mantissa * 2 ^ amount).log2 = mantissa.log2 + amount := by
  induction amount with
  | zero => simp
  | succ amount ih =>
      have doubled : mantissa * 2 ^ (amount + 1) = 2 * (mantissa * 2 ^ amount) := by
        rw [Nat.pow_succ, ← Nat.mul_assoc, Nat.mul_comm _ 2]
      have kept : mantissa * 2 ^ amount ≠ 0 := Nat.mul_ne_zero nonzero (Nat.two_pow_pos amount).ne'
      rw [doubled, Nat.log2_two_mul kept, ih]
      omega

/-- Digits may be appended without a change of value. -/
theorem decreaseExponent_spec (mantissa : ℕ) (exponent target : ℤ) :
    ∃ digits scale, decreaseExponent mantissa exponent target = (digits, scale) ∧
      scale = min exponent target ∧ (digits : ℚ) * 2 ^ scale = mantissa * 2 ^ exponent ∧
      (mantissa ≠ 0 → totalExponent digits scale = totalExponent mantissa exponent) := by
  obtain ⟨amount, known⟩ : ∃ amount : ℕ, (exponent - target).toNat = amount := ⟨_, rfl⟩
  refine ⟨mantissa <<< amount, exponent - amount, by rw [decreaseExponent, known], by omega, ?_, ?_⟩
  · rw [Nat.shiftLeft_eq, Nat.cast_mul, Nat.cast_pow, Nat.cast_two, mul_assoc, two_pow_mul_zpow,
      add_sub_cancel]
  · intro nonzero
    rw [totalExponent, totalExponent, Nat.shiftLeft_eq, log2_mul_two_pow nonzero]
    push_cast
    omega

theorem round_holds (sign : Sign) (nonzero : mantissa ≠ 0) (exponent : ℤ) :
    ∃ result, Rounds (mantissa * 2 ^ exponent) result ∧
      Holds (UnpackedFloat.round Format.binary64 sign mantissa exponent) (signed sign result) := by
  obtain ⟨digits, scale, decreased, least, same, total⟩ := decreaseExponent_spec mantissa exponent
    (Format.binary64.targetExponent (totalExponent mantissa exponent))
  rw [UnpackedFloat.round, decreased, ← same]
  refine roundWithAccuracy_holds sign (describes_exact digits scale) ?_
  rw [total nonzero, least]
  exact min_le_right _ _

/-- Below zero nothing is nearer than what the mirrored value is rounded to. -/
theorem Rounds.of_neg {result : ℚ} (mirrored : Rounds (-exact) (-result)) (negative : exact < 0) :
    Rounds exact result := by
  intro number representable
  have nearest := mirrored 0 representable_zero
  obtain ⟨digits, scale, _, _, rfl⟩ := representable
  have nonneg : 0 ≤ (digits : ℚ) * 2 ^ scale :=
    mul_nonneg (Nat.cast_nonneg digits) (two_zpow_pos scale).le
  rw [abs_of_nonpos (by linarith : exact - digits * 2 ^ scale ≤ 0)]
  rw [sub_zero, abs_of_pos (by linarith : 0 < -exact), neg_sub_neg, abs_sub_comm] at nearest
  linarith

/-- Rounding is the same above and below zero. -/
structure RoundsEvenly (exact result : ℚ) : Prop where
  above : Rounds exact result
  below : Rounds (-exact) (-result)

theorem RoundsEvenly.rfl (exact : ℚ) : RoundsEvenly exact exact := ⟨.rfl _, .rfl _⟩

theorem Rounds.evenly {result : ℚ} (rounds : Rounds exact result) (positive : 0 < exact) :
    RoundsEvenly exact result :=
  ⟨rounds, .of_neg (by simpa using rounds) (neg_neg_of_pos positive)⟩

theorem RoundsEvenly.neg {result : ℚ} (rounds : RoundsEvenly exact result) :
    RoundsEvenly (-exact) (-result) :=
  ⟨rounds.below, by simpa using rounds.above⟩

theorem normalize_holds (mantissa exponent : ℤ) (zeroSign : Sign) :
    ∃ value, RoundsEvenly (mantissa * 2 ^ exponent) value ∧
      Holds (UnpackedFloat.normalize Format.binary64 mantissa exponent zeroSign) value := by
  rw [UnpackedFloat.normalize]
  have away : ∀ digits : ℕ, digits ≠ 0 → (0 : ℚ) < digits * 2 ^ exponent := fun digits nonzero =>
    mul_pos (by exact_mod_cast Nat.pos_of_ne_zero nonzero) (two_zpow_pos exponent)
  rcases lt_trichotomy mantissa 0 with negative | rfl | positive
  · obtain ⟨digits, rfl⟩ : ∃ digits : ℕ, mantissa = -digits := ⟨mantissa.natAbs, by omega⟩
    have nonzero : digits ≠ 0 := by omega
    obtain ⟨result, rounds, holds⟩ := round_holds .negative nonzero exponent
    rw [compare_lt_iff_lt.mpr negative]
    refine ⟨-result, ?_, by simpa [signed] using holds⟩
    simpa using (rounds.evenly (away digits nonzero)).neg
  · rw [compare_eq_iff_eq.mpr rfl]
    exact ⟨0, by simpa using RoundsEvenly.rfl 0, .inl ⟨zeroSign, rfl, rfl⟩⟩
  · obtain ⟨digits, rfl⟩ := Int.eq_ofNat_of_zero_le positive.le
    have nonzero : digits ≠ 0 := by omega
    obtain ⟨result, rounds, holds⟩ := round_holds .positive nonzero exponent
    rw [compare_gt_iff_gt.mpr positive]
    exact ⟨result, by simpa using rounds.evenly (away digits nonzero), by simpa [signed] using holds⟩

end Round

end Float
