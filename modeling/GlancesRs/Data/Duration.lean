import GlancesRs.Data.Binary64
import Mathlib.Data.Rat.Floor

namespace GlancesRs.Data

/-! The part of `std::time::Duration` the server uses: an exact count of
nanoseconds below `2 ^ 64` seconds. Every operation that would panic out of
range is partial. -/

/-- Nearest natural number, ties to even: how `Duration::from_secs_f64` picks
the nanosecond. -/
def roundHalfEven (value : ℚ) : ℕ :=
  let below := ⌊value⌋₊
  let rest := value - below
  if rest < 1 / 2 then below
  else if 1 / 2 < rest then below + 1
  else if below % 2 = 0 then below else below + 1

variable {value : ℚ}

theorem roundHalfEven_natCast (whole : ℕ) : roundHalfEven whole = whole := by
  simp [roundHalfEven]

theorem roundHalfEven_le (nonneg : 0 ≤ value) : (roundHalfEven value : ℚ) ≤ value + 1 / 2 := by
  have below := Nat.floor_le nonneg
  simp only [roundHalfEven]
  split
  · linarith
  · split
    · push_cast; linarith
    · split <;> push_cast <;> linarith

theorem le_roundHalfEven {whole : ℕ} (covered : (whole : ℚ) ≤ value) :
    whole ≤ roundHalfEven value := by
  have floored : whole ≤ ⌊value⌋₊ := Nat.le_floor covered
  simp only [roundHalfEven]
  split
  · exact floored
  · split
    · omega
    · split <;> omega

theorem lt_of_roundHalfEven_lt {whole : ℕ} (bounded : roundHalfEven value < whole) :
    value < whole := by
  by_contra covered
  exact bounded.not_ge (le_roundHalfEven (not_lt.mp covered))

theorem roundHalfEven_pos_iff : 0 < roundHalfEven value ↔ 1 / 2 < value := by
  constructor
  · intro positive
    by_contra small
    have floored : ⌊value⌋₊ = 0 := Nat.floor_eq_zero.mpr (by linarith)
    simp only [roundHalfEven, floored, Nat.cast_zero, sub_zero, Nat.zero_mod, if_true,
      if_neg small, ite_self] at positive
    exact Nat.lt_irrefl 0 positive
  · intro large
    by_cases whole : 1 ≤ value
    · have one : ((1 : ℕ) : ℚ) ≤ value := by simpa using whole
      exact le_roundHalfEven one
    · have floored : ⌊value⌋₊ = 0 := Nat.floor_eq_zero.mpr (by linarith)
      have notBelow : ¬ value < 1 / 2 := by linarith
      simp only [roundHalfEven, floored, Nat.cast_zero, sub_zero, if_neg notBelow, if_pos large]
      exact Nat.zero_lt_one

structure Duration where
  nanos : ℕ
  inRange : nanos < 2 ^ 64 * 10 ^ 9
deriving DecidableEq, Repr

namespace Duration

instance : LE Duration := ⟨fun left right => left.nanos ≤ right.nanos⟩

instance : LT Duration := ⟨fun left right => left.nanos < right.nanos⟩

instance (left right : Duration) : Decidable (left ≤ right) :=
  inferInstanceAs (Decidable (left.nanos ≤ right.nanos))

instance (left right : Duration) : Decidable (left < right) :=
  inferInstanceAs (Decidable (left.nanos < right.nanos))

theorem le_def {left right : Duration} : left ≤ right ↔ left.nanos ≤ right.nanos := Iff.rfl

def isZero (duration : Duration) : Bool := duration.nanos == 0

/-- `none` where the nanosecond count leaves the range, as the checked
constructors and operators of `std` panic there. -/
def ofNanos? (nanos : ℕ) : Option Duration :=
  if inRange : nanos < 2 ^ 64 * 10 ^ 9 then some ⟨nanos, inRange⟩ else none

def mul? (duration : Duration) (factor : ℕ) : Option Duration :=
  ofNanos? (duration.nanos * factor)

/-- `Duration::from_secs_f64`: panics on NaN, on negative values, from
`2 ^ 64` seconds on, and where rounding carries out of range. -/
def fromSecsF64? (secs : Float) : Option Duration :=
  match secs.toRational? with
  | none => none
  | some value =>
      if value < 0 ∨ 2 ^ 64 ≤ value then none
      else ofNanos? (roundHalfEven (value * 10 ^ 9))

variable {secs : Float} {duration : Duration} {nanos factor : ℕ}

theorem ofNanos?_eq_some : ofNanos? nanos = some duration ↔ duration.nanos = nanos := by
  rw [ofNanos?]
  split
  · rw [Option.some.injEq]
    constructor
    · intro same
      cases same
      rfl
    · intro same
      cases same
      rfl
  · rename_i outOfRange
    constructor
    · intro impossible; cases impossible
    · intro same
      cases same
      exact absurd duration.inRange outOfRange

theorem ofNanos?_isSome : (ofNanos? nanos).isSome ↔ nanos < 2 ^ 64 * 10 ^ 9 := by
  rw [ofNanos?]
  split
  · rename_i inRange
    exact iff_of_true rfl inRange
  · rename_i outOfRange
    exact iff_of_false (by simp) outOfRange

theorem mul?_eq_some {product : Duration} :
    duration.mul? factor = some product ↔ product.nanos = duration.nanos * factor :=
  ofNanos?_eq_some

theorem mul?_isSome : (duration.mul? factor).isSome ↔ duration.nanos * factor < 2 ^ 64 * 10 ^ 9 :=
  ofNanos?_isSome

/-- In range the conversion succeeds, with the nearest nanosecond: the grid of
binary64 is coarser than a second where rounding could carry out of range. -/
theorem fromSecsF64?_of_range (known : secs.toRational? = some value) (nonneg : 0 ≤ value)
    (bounded : value < 2 ^ 64) :
    ∃ duration, fromSecsF64? secs = some duration ∧
      duration.nanos = roundHalfEven (value * 10 ^ 9) := by
  have fits : roundHalfEven (value * 10 ^ 9) < 2 ^ 64 * 10 ^ 9 := by
    by_cases large : 2 ^ 53 ≤ value
    · obtain ⟨whole, rfl⟩ := Float.toRational?_integer known large
      have wholeBound : whole < 2 ^ 64 := by exact_mod_cast bounded
      have scaled : roundHalfEven ((whole : ℚ) * 10 ^ 9) = whole * 10 ^ 9 := by
        rw [← roundHalfEven_natCast (whole * 10 ^ 9)]
        push_cast
        rfl
      rw [scaled]
      exact Nat.mul_lt_mul_of_pos_right wholeBound (by norm_num)
    · have scaled : 0 ≤ value * 10 ^ 9 := by positivity
      have rounded := roundHalfEven_le scaled
      rw [not_le] at large
      have below : (roundHalfEven (value * 10 ^ 9) : ℚ) < 2 ^ 64 * 10 ^ 9 := by
        calc (roundHalfEven (value * 10 ^ 9) : ℚ)
            ≤ value * 10 ^ 9 + 1 / 2 := rounded
          _ < 2 ^ 53 * 10 ^ 9 + 1 / 2 := by gcongr
          _ < 2 ^ 64 * 10 ^ 9 := by norm_num
      exact_mod_cast below
  refine ⟨⟨_, fits⟩, ?_, rfl⟩
  rw [fromSecsF64?]
  rw [known]
  have accepted : ¬ (value < 0 ∨ 2 ^ 64 ≤ value) := by
    intro refused
    rcases refused with negative | large <;> linarith
  simp only [accepted, if_false]
  exact ofNanos?_eq_some.mpr rfl

theorem fromSecsF64?_nanos (known : secs.toRational? = some value)
    (converted : fromSecsF64? secs = some duration) :
    duration.nanos = roundHalfEven (value * 10 ^ 9) := by
  simp only [fromSecsF64?, known] at converted
  split at converted
  · cases converted
  · exact ofNanos?_eq_some.mp converted

theorem fromSecsF64?_of_large (known : secs.toRational? = some value) (large : 2 ^ 64 ≤ value) :
    fromSecsF64? secs = none := by
  simp [fromSecsF64?, known, large]

theorem fromSecsF64?_exists_iff (known : secs.toRational? = some value) (nonneg : 0 ≤ value) :
    (∃ duration, fromSecsF64? secs = some duration) ↔ value < 2 ^ 64 := by
  constructor
  · intro result
    obtain ⟨duration, converted⟩ := result
    by_contra large
    rw [fromSecsF64?_of_large known (not_lt.mp large)] at converted
    cases converted
  · intro bounded
    obtain ⟨duration, converted, _⟩ := fromSecsF64?_of_range known nonneg bounded
    exact ⟨duration, converted⟩

end Duration

end GlancesRs.Data
