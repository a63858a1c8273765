import GlancesRs.Data.Duration

namespace GlancesRs.Data

/-! Time kept twice: a monotonic clock in nanoseconds, and instants of it stored
in an `AtomicI64` of milliseconds. Differences of the two agree up to the
truncated millisecond. -/

def Duration.fromMillis (millis : UInt64) : Duration where
  nanos := millis.toNat * 10 ^ 6
  inRange := by
    have bounded := millis.toNat_lt
    omega

/-- Nanoseconds since the clock's origin; its milliseconds fit an `i64`. -/
structure Clock where
  nanos : ℕ
  inRange : nanos / 10 ^ 6 < 2 ^ 63
deriving DecidableEq

def Clock.origin : Clock := ⟨0, by decide⟩

def Clock.advance? (clock : Clock) (elapsed : ℕ) : Option Clock :=
  if inRange : (clock.nanos + elapsed) / 10 ^ 6 < 2 ^ 63 then some ⟨clock.nanos + elapsed, inRange⟩
  else none

/-- `as_millis() as i64`. -/
def Clock.nowMillis (clock : Clock) : ℤ := Int.bmod (clock.nanos / 10 ^ 6 : ℕ) (2 ^ 64)

/-- `i64::saturating_sub`. -/
def saturatingSub (left right : ℤ) : ℤ := max (-2 ^ 63) (min (2 ^ 63 - 1) (left - right))

/-- `from_millis(now.saturating_sub(last).max(0) as u64)`. -/
def sinceMillis (clock : Clock) (last : ℤ) : Duration :=
  .fromMillis (.ofNat (max (saturatingSub clock.nowMillis last) 0).toNat)

variable {clock later : Clock} {elapsed start : ℕ}

theorem Clock.advance?_eq_some :
    clock.advance? elapsed = some later ↔ later.nanos = clock.nanos + elapsed := by
  rw [advance?]
  split
  · rw [Option.some.injEq]
    constructor
    · intro same
      cases same
      rfl
    · intro reached
      cases later
      cases reached
      rfl
  · rename_i outOfRange
    constructor
    · intro impossible; cases impossible
    · intro reached
      exact absurd (reached ▸ later.inRange) outOfRange

theorem Clock.nowMillis_eq (clock : Clock) : clock.nowMillis = (clock.nanos / 10 ^ 6 : ℕ) := by
  have bounded := clock.inRange
  unfold nowMillis
  rw [Int.bmod_eq_of_le] <;> omega

theorem sinceMillis_nanos (past : start ≤ clock.nanos) :
    (sinceMillis clock (start / 10 ^ 6 : ℕ)).nanos =
      (clock.nanos / 10 ^ 6 - start / 10 ^ 6) * 10 ^ 6 := by
  have bounded := clock.inRange
  have ordered : start / 10 ^ 6 ≤ clock.nanos / 10 ^ 6 := Nat.div_le_div_right past
  have exact : (max (saturatingSub clock.nowMillis (start / 10 ^ 6 : ℕ)) 0).toNat =
      clock.nanos / 10 ^ 6 - start / 10 ^ 6 := by
    rw [clock.nowMillis_eq]
    rw [saturatingSub]
    omega
  have fits : clock.nanos / 10 ^ 6 - start / 10 ^ 6 < 2 ^ 64 := by omega
  simp only [sinceMillis, Duration.fromMillis, exact]
  rw [UInt64.toNat_ofNat_of_lt' (by simpa using fits)]

/-- Truncation to milliseconds is off by less than one, either way. -/
theorem sinceMillis_bounds (past : start ≤ clock.nanos) :
    (sinceMillis clock (start / 10 ^ 6 : ℕ)).nanos < clock.nanos - start + 10 ^ 6 ∧
      clock.nanos - start < (sinceMillis clock (start / 10 ^ 6 : ℕ)).nanos + 10 ^ 6 := by
  rw [sinceMillis_nanos past]
  omega

theorem toNat_saturatingSub_mono {m n : ℤ} (ordered : m ≤ n) (last : ℤ) :
    (max (saturatingSub m last) 0).toNat ≤ (max (saturatingSub n last) 0).toNat := by
  simp only [saturatingSub]
  omega

theorem toNat_saturatingSub_lt (m last : ℤ) : (max (saturatingSub m last) 0).toNat < 2 ^ 64 := by
  simp only [saturatingSub]
  omega

theorem sinceMillis_mono (passed : clock.nanos ≤ later.nanos) (last : ℤ) :
    sinceMillis clock last ≤ sinceMillis later last := by
  have ordered : clock.nowMillis ≤ later.nowMillis := by
    rw [clock.nowMillis_eq, later.nowMillis_eq]
    exact Int.ofNat_le.mpr (Nat.div_le_div_right passed)
  have whole : ∀ {millis : ℕ}, millis < 2 ^ 64 → (UInt64.ofNat millis).toNat = millis :=
    fun bounded => UInt64.toNat_ofNat_of_lt' (by simpa using bounded)
  simp only [sinceMillis, Duration.fromMillis, Duration.le_def]
  rw [whole (toNat_saturatingSub_lt _ _), whole (toNat_saturatingSub_lt _ _)]
  exact Nat.mul_le_mul_right _ (toNat_saturatingSub_mono ordered last)

end GlancesRs.Data
