import GlancesRs.Data.Binary64
import Mathlib.Algebra.Order.Ring.Int
import Mathlib.Data.Prod.Lex

/-! Comparisons of binary64 numbers as comparisons in a linear order: sign class
first, then exponent, then mantissa, both reversed below zero. NaN has no rank. -/

namespace Float

open Model Model.UnpackedFloat

abbrev Rank : Type := ℤ ×ₗ ℤ ×ₗ ℤ

def unpackedRank? : UnpackedFloat → Option Rank
  | .notANumber => none
  | .infinity .negative => some (toLex (-2, toLex (0, 0)))
  | .finite .negative mantissa exponent _ => some (toLex (-1, toLex (-exponent, -mantissa)))
  | .zero _ => some (toLex (0, toLex (0, 0)))
  | .finite .positive mantissa exponent _ => some (toLex (1, toLex (exponent, mantissa)))
  | .infinity .positive => some (toLex (2, toLex (0, 0)))

def rank? (x : Float) : Option Rank := unpackedRank? x.toModel.unpack

/-- The rank of `-∞`. -/
def lowest : Rank := toLex (-2, toLex (0, 0))

variable {x y z : Float} {first second : Rank}

theorem compare_natCast (left right : ℕ) : compare (left : ℤ) right = compare left right := by
  rcases lt_trichotomy left right with less | same | greater
  · rw [compare_lt_iff_lt.mpr less, compare_lt_iff_lt.mpr (by exact_mod_cast less)]
  · rw [compare_eq_iff_eq.mpr same, compare_eq_iff_eq.mpr (by exact_mod_cast same)]
  · rw [compare_gt_iff_gt.mpr greater, compare_gt_iff_gt.mpr (by exact_mod_cast greater)]

theorem compare_neg (left right : ℤ) : compare (-left) (-right) = (compare left right).swap := by
  rcases lt_trichotomy left right with less | same | greater
  · rw [compare_lt_iff_lt.mpr less, compare_gt_iff_gt.mpr (neg_lt_neg less)]
    rfl
  · rw [compare_eq_iff_eq.mpr same, compare_eq_iff_eq.mpr (congrArg Neg.neg same)]
    rfl
  · rw [compare_gt_iff_gt.mpr greater, compare_lt_iff_lt.mpr (neg_lt_neg greater)]
    rfl

/-- The model's comparison is the one of the ranks. -/
theorem compare_eq (left right : UnpackedFloat) :
    left.compare right =
      (unpackedRank? left).bind fun first =>
        (unpackedRank? right).map fun second => compare first second := by
  rcases left with ⟨_ | _⟩ | _ | ⟨_⟩ | ⟨_ | _, mantissa, exponent, _⟩ <;>
    rcases right with ⟨_ | _⟩ | _ | ⟨_⟩ | ⟨_ | _, mantissa', exponent', _⟩ <;>
      try rfl
  · change some _ = some ((compare (-exponent) (-exponent')).then
      (compare (-(mantissa : ℤ)) (-(mantissa' : ℤ))))
    rw [compare_neg, compare_neg, compare_natCast, ← Ordering.swap_then]
  · change some _ = some ((compare exponent exponent').then (compare (mantissa : ℤ) mantissa'))
    rw [compare_natCast]

theorem le_iff_rank :
    x ≤ y ↔ ∃ first second, x.rank? = some first ∧ y.rank? = some second ∧ first ≤ second := by
  have compared : x ≤ y ↔ UnpackedFloat.le x.toModel.unpack y.toModel.unpack = true := by
    change Float.le x y = true ↔ _
    simp only [Float.le, decide_eq_true_eq]
    exact Iff.rfl
  rw [compared, UnpackedFloat.le, compare_eq]
  change (x.rank?.bind fun first => y.rank?.map fun second => compare first second).any _ = true ↔ _
  cases x.rank? with
  | none => simp
  | some first =>
      cases y.rank? with
      | none => simp
      | some second =>
          have ordered : (compare first second).isLE = true ↔ first ≤ second := by
            rw [Ordering.isLE_iff_ne_gt]
            exact compare_le_iff_le
          simp only [Option.bind_some, Option.map_some, Option.any_some, ordered, Option.some.injEq,
            exists_and_left, exists_eq_left']

theorem beq_iff_rank : (x == y) = true ↔ ∃ rank, x.rank? = some rank ∧ y.rank? = some rank := by
  change (UnpackedFloat.compare x.toModel.unpack y.toModel.unpack == some .eq) = true ↔ _
  rw [compare_eq]
  change ((x.rank?.bind fun first => y.rank?.map fun second => compare first second) == _) = true ↔ _
  cases x.rank? with
  | none => simp
  | some first =>
      cases y.rank? with
      | none => simp
      | some second =>
          simp only [Option.bind_some, Option.map_some, beq_iff_eq, Option.some.injEq, compare_eq_iff_eq,
            exists_eq_left']
          exact eq_comm

theorem rank?_of_isFinite (finite : x.isFinite = true) :
    ∃ rank, x.rank? = some rank ∧ lowest < rank := by
  rcases isFinite_cases finite with ⟨sign, unpacked⟩ | ⟨sign, mantissa, exponent, positive, unpacked⟩
  · rw [rank?, unpacked]
    exact ⟨_, rfl, Prod.Lex.toLex_lt_toLex.mpr (.inl (by norm_num))⟩
  · rw [rank?, unpacked]
    cases sign <;> exact ⟨_, rfl, Prod.Lex.toLex_lt_toLex.mpr (.inl (by norm_num))⟩

theorem le_refl_of_isFinite (finite : x.isFinite = true) : x ≤ x := by
  obtain ⟨rank, known, _⟩ := rank?_of_isFinite finite
  exact le_iff_rank.mpr ⟨rank, rank, known, known, le_rfl⟩

theorem le_trans_rank (lower : x ≤ y) (upper : y ≤ z) : x ≤ z := by
  obtain ⟨low, middle, atLow, atMiddle, first⟩ := le_iff_rank.mp lower
  obtain ⟨middle', high, atMiddle', atHigh, second⟩ := le_iff_rank.mp upper
  rw [atMiddle, Option.some.injEq] at atMiddle'
  exact le_iff_rank.mpr ⟨low, high, atLow, atHigh, first.trans (atMiddle' ▸ second)⟩

/-- Different numbers in order are not in the other order. -/
theorem not_le_of_le_of_ne (ordered : x ≤ y) (different : (x == y) = false) : ¬ y ≤ x := by
  intro reversed
  obtain ⟨low, high, atLow, atHigh, first⟩ := le_iff_rank.mp ordered
  obtain ⟨high', low', atHigh', atLow', second⟩ := le_iff_rank.mp reversed
  rw [atHigh, Option.some.injEq] at atHigh'
  rw [atLow, Option.some.injEq] at atLow'
  subst atHigh' atLow'
  have same : (x == y) = true :=
    beq_iff_rank.mpr ⟨low, atLow, (first.antisymm second) ▸ atHigh⟩
  rw [same] at different
  cases different

theorem not_isFinite_le_negInfinity (finite : x.isFinite = true) : ¬ x ≤ -(1 / 0) := by
  intro below
  obtain ⟨low, high, atLow, atHigh, ordered⟩ := le_iff_rank.mp below
  obtain ⟨rank, known, above⟩ := rank?_of_isFinite finite
  have bottom : (-(1 / 0) : Float).rank? = some lowest := by decide +kernel
  rw [bottom, Option.some.injEq] at atHigh
  rw [known, Option.some.injEq] at atLow
  subst atHigh atLow
  exact absurd ordered (not_le_of_gt above)

end Float
