import GlancesRs.Data.FloatArith

/-! Bounds of what a computation in floats yields: as long as every exact result
lies under a number of the format, what it rounds to does as well. -/

namespace Float

/-- A finite number from zero up to a bound. -/
def Within (x : Float) (bound : ℚ) : Prop :=
  ∃ value, x.toRational? = some value ∧ 0 ≤ value ∧ value ≤ bound

variable {x y : Float} {a b bound : ℚ}

theorem Within.mono (within : x.Within a) (wider : a ≤ b) : x.Within b := by
  obtain ⟨value, known, nonneg, under⟩ := within
  exact ⟨value, known, nonneg, under.trans wider⟩

theorem Within.isFinite (within : x.Within bound) : x.isFinite = true := by
  obtain ⟨_, known, _⟩ := within
  exact isFinite_of_known known

theorem within_ofNat {n : ℕ} (small : n < 2 ^ 53) : (Float.ofNat n).Within n :=
  ⟨n, toRational?_ofNat small, Nat.cast_nonneg n, le_rfl⟩

theorem within_zero : (0 : Float).Within 0 := by
  obtain ⟨value, known, nonneg, under⟩ := @within_ofNat 0 (by norm_num)
  exact ⟨value, known, nonneg, by simpa using under⟩

theorem within_toFloat {n : UInt64} {most : ℕ} (under : n.toNat ≤ most)
    (representable : Representable most) : n.toFloat.Within most := by
  obtain ⟨value, known, rounds⟩ := toFloat_rounds n
  exact ⟨value, known, rounds.nonneg (Nat.cast_nonneg _),
    rounds.below _ representable (by exact_mod_cast under)⟩

theorem within_toFloat_max (n : UInt64) : n.toFloat.Within (2 ^ 64) := by
  have most := @within_toFloat n (2 ^ 64) n.toNat_lt.le
    (by exact_mod_cast @representable_two_zpow 64 (by norm_num))
  exact_mod_cast most

/-- A sum of numbers is not less than any of them. -/
theorem add_within (first : x.toRational? = some a) (second : y.toRational? = some b)
    (nonneg : 0 ≤ a) (nonneg' : 0 ≤ b) (representable : Representable bound)
    (under : a + b ≤ bound) (range : bound ≤ 2 ^ 200) :
    ∃ sum, (x + y).toRational? = some sum ∧ a ≤ sum ∧ b ≤ sum ∧ sum ≤ bound := by
  obtain ⟨sum, known, rounds⟩ := add_rounds first second (add_nonneg nonneg nonneg') (under.trans range)
  exact ⟨sum, known, rounds.above a (representable_of_known first nonneg) (by linarith),
    rounds.above b (representable_of_known second nonneg') (by linarith),
    rounds.below bound representable under⟩

/-- A difference of numbers in order stays below the first. -/
theorem sub_within (first : x.toRational? = some a) (second : y.toRational? = some b)
    (nonneg : 0 ≤ b) (ordered : b ≤ a) (range : a ≤ 2 ^ 200) : (x - y).Within a := by
  have nonneg' := nonneg.trans ordered
  obtain ⟨difference, known, rounds⟩ :=
    sub_rounds first second nonneg' nonneg range (ordered.trans range)
  exact ⟨difference, known, rounds.nonneg (by linarith),
    rounds.below a (representable_of_known first nonneg') (by linarith)⟩

/-- `max(x - y, 0)`, whichever of the two is larger. -/
theorem max_sub_within (first : x.toRational? = some a) (second : y.toRational? = some b)
    (nonneg : 0 ≤ a) (nonneg' : 0 ≤ b) (range : a ≤ 2 ^ 200) (range' : b ≤ 2 ^ 200) :
    (max (x - y) 0).Within a := by
  obtain ⟨difference, known, rounds⟩ := sub_rounds first second nonneg nonneg' range range'
  have under := rounds.below a (representable_of_known first nonneg) (by linarith)
  exact ⟨max difference 0, max_zero_known known, le_max_right _ _, max_le under nonneg⟩

theorem Within.mul_ofNat {n : ℕ} (within : x.Within bound) (small : n < 2 ^ 53)
    (representable : Representable (bound * n)) (range : bound * n ≤ 2 ^ 200) :
    (x * Float.ofNat n).Within (bound * n) := by
  obtain ⟨value, known, nonneg, under⟩ := within
  have scale : value * n ≤ bound * n := mul_le_mul_of_nonneg_right under (Nat.cast_nonneg n)
  obtain ⟨product, found, rounds⟩ :=
    mul_rounds known (toRational?_ofNat small) nonneg (Nat.cast_nonneg n) (scale.trans range)
  exact ⟨product, found, rounds.nonneg (mul_nonneg nonneg (Nat.cast_nonneg n)),
    rounds.below _ representable scale⟩

theorem Within.div {least : ℚ} (within : x.Within bound) (second : y.toRational? = some b)
    (positive : 0 < least) (atLeast : least ≤ b) (representable : Representable (bound / least))
    (range : bound / least ≤ 2 ^ 200) : (x / y).Within (bound / least) := by
  obtain ⟨value, known, nonneg, under⟩ := within
  have divisor := positive.trans_le atLeast
  have scale : value / b ≤ bound / least := div_le_div₀ (nonneg.trans under) under positive atLeast
  obtain ⟨quotient, found, rounds⟩ := div_rounds known second nonneg divisor (scale.trans range)
  exact ⟨quotient, found, rounds.nonneg (div_nonneg nonneg divisor.le),
    rounds.below _ representable scale⟩

/-- The share a part has of a whole. -/
theorem share_within (within : x.Within b) (whole : y.toRational? = some b) (positive : 0 < b) :
    (x / y).Within 1 := by
  have one : b / b = 1 := div_self positive.ne'
  have share := within.div whole positive le_rfl
  rw [one] at share
  exact share (by exact_mod_cast @representable_natCast 1 (by norm_num)) (one_le_pow₀ (by norm_num))

end Float
