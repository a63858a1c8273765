import GlancesRs.Data.FloatBounds
import GlancesRs.Linux.Meminfo
import GlancesRs.Linux.ProcStat
import GlancesRs.Plugins.Fs

namespace GlancesRs

open Data

/-! Bounds of the figures the plugins compute in floats: intervals and rates are
finite numbers, percentages lie between 0 and 100 after all their roundings. -/

open Float (Within Representable)

variable {x y : Float} {a b : ℚ} {nanos : ℕ}

section Rounding

theorem roundHalfAway_nonneg (nonneg : 0 ≤ a) : 0 ≤ roundHalfAway a := by
  rw [roundHalfAway, if_pos nonneg, Int.le_floor]
  push_cast
  linarith

theorem roundHalfAway_le {whole : ℕ} (nonneg : 0 ≤ a) (under : a ≤ whole) : roundHalfAway a ≤ whole := by
  rw [roundHalfAway, if_pos nonneg, ← Int.lt_add_one_iff, Int.floor_lt]
  push_cast
  linarith

theorem roundF64_within {whole : ℕ} (within : x.Within whole) (representable : Representable whole)
    (range : (whole : ℚ) ≤ 2 ^ 200) : (roundF64 x).Within whole := by
  obtain ⟨value, known, nonneg, under⟩ := within
  simp only [roundF64, known]
  split
  · obtain ⟨zero, zeroKnown, zeroNonneg, zeroLe⟩ := Float.within_zero
    obtain rfl : zero = 0 := le_antisymm zeroLe zeroNonneg
    obtain ⟨product, found, rounds⟩ := Float.mul_rounds zeroKnown known le_rfl nonneg
      (by rw [zero_mul]; positivity)
    rw [zero_mul] at rounds
    obtain rfl := rounds.eq_of_representable Float.representable_zero
    exact ⟨0, found, le_rfl, Nat.cast_nonneg _⟩
  · have least := roundHalfAway_nonneg nonneg
    have most := roundHalfAway_le nonneg under
    have mostCast : (roundHalfAway value : ℚ) ≤ whole := by exact_mod_cast most
    obtain ⟨result, found, rounds⟩ := @Float.ofInt_rounds (roundHalfAway value) least
      (by exact_mod_cast mostCast.trans range)
    exact ⟨result, found, rounds.nonneg (by exact_mod_cast least),
      rounds.below _ representable mostCast⟩

/-- Rounding to a decimal place keeps below a whole bound. -/
theorem roundTo_within {whole places : ℕ} (within : x.Within whole) (positive : 0 < places)
    (small : places < 2 ^ 53) (representable : Representable whole)
    (scaled : Representable (whole * places)) (range : (whole : ℚ) * places ≤ 2 ^ 200) :
    (roundF64 (x * Float.ofNat places) / Float.ofNat places).Within whole := by
  have magnified := within.mul_ofNat small scaled range
  rw [← Nat.cast_mul] at magnified scaled range
  have rounded := roundF64_within magnified scaled range
  have divisor : (0 : ℚ) < places := by exact_mod_cast positive
  have back : ((whole * places : ℕ) : ℚ) / places = whole := by
    rw [Nat.cast_mul, mul_div_assoc, div_self divisor.ne', mul_one]
  have divided := rounded.div (Float.toRational?_ofNat small) divisor le_rfl
  rw [back] at divided
  have unscaled : (whole : ℚ) ≤ 2 ^ 200 := by
    refine le_trans ?_ range
    exact_mod_cast Nat.le_mul_of_pos_right whole positive
  exact divided representable unscaled

theorem round1_within {whole : ℕ} (within : x.Within whole) (representable : Representable whole)
    (scaled : Representable (whole * (10 : ℕ))) (range : (whole : ℚ) * (10 : ℕ) ≤ 2 ^ 200) :
    (round1 x).Within whole :=
  roundTo_within within (by norm_num) (by norm_num) representable scaled range

theorem round3_within {whole : ℕ} (within : x.Within whole) (representable : Representable whole)
    (scaled : Representable (whole * (1000 : ℕ))) (range : (whole : ℚ) * (1000 : ℕ) ≤ 2 ^ 200) :
    (round3 x).Within whole :=
  roundTo_within within (by norm_num) (by norm_num) representable scaled range

theorem representable_two_pow {power : ℕ} : Representable ((2 ^ power : ℕ) : ℚ) :=
  ⟨1, power, by norm_num, by omega, by simp⟩

theorem representable_two_pow_mul {power factor : ℕ} (small : factor < 2 ^ 53) :
    Representable (((2 ^ power : ℕ) : ℚ) * factor) :=
  ⟨factor, power, small, by omega, by push_cast; rw [zpow_natCast, mul_comm]⟩

end Rounding

section Intervals

/-- Seconds of a duration: none, or not less than a nanosecond's. -/
theorem asSecsF64_within (range : nanos < 2 ^ 64 * 10 ^ 9) : ∃ seconds,
    (asSecsF64 nanos).toRational? = some seconds ∧ 0 ≤ seconds ∧ seconds ≤ 2 ^ 65 ∧
      (seconds = 0 ∨ (2 ^ 30)⁻¹ ≤ seconds) := by
  have wholeSmall : nanos / 10 ^ 9 ≤ 2 ^ 64 := by omega
  obtain ⟨whole, wholeKnown, wholeRounds⟩ :=
    @Float.ofNat_rounds (nanos / 10 ^ 9) (wholeSmall.trans (by norm_num))
  have restSmall : nanos % 10 ^ 9 < 10 ^ 9 := Nat.mod_lt _ (by norm_num)
  have restKnown := @Float.toRational?_ofNat (nanos % 10 ^ 9) (restSmall.trans (by norm_num))
  have unitKnown := @Float.toRational?_ofNat (10 ^ 9) (by norm_num)
  have unitPositive : (0 : ℚ) < ((10 ^ 9 : ℕ) : ℚ) := by norm_num
  have restLe : ((nanos % 10 ^ 9 : ℕ) : ℚ) / ((10 ^ 9 : ℕ) : ℚ) ≤ 1 := by
    rw [div_le_one unitPositive]
    exact_mod_cast restSmall.le
  obtain ⟨rest, restFound, restRounds⟩ := Float.div_rounds restKnown unitKnown (Nat.cast_nonneg _)
    unitPositive (restLe.trans (one_le_pow₀ (by norm_num)))
  have oneRepresentable : Representable 1 := by
    exact_mod_cast @Float.representable_natCast 1 (by norm_num)
  have wholeNonneg := wholeRounds.nonneg (Nat.cast_nonneg _)
  have restNonneg := restRounds.nonneg (div_nonneg (Nat.cast_nonneg _) unitPositive.le)
  have wholeLe : whole ≤ 2 ^ 64 := by
    refine wholeRounds.below _ ?_ (by exact_mod_cast wholeSmall)
    exact_mod_cast @Float.representable_two_zpow 64 (by norm_num)
  have restBelow := restRounds.below 1 oneRepresentable restLe
  obtain ⟨seconds, known, wholeUnder, restUnder, under⟩ := @Float.add_within _ _ _ _ (2 ^ 65)
    wholeKnown restFound wholeNonneg restNonneg
    (by exact_mod_cast @Float.representable_two_zpow 65 (by norm_num)) (by linarith)
    (pow_le_pow_right₀ (by norm_num) (by norm_num))
  refine ⟨seconds, known, wholeNonneg.trans wholeUnder, under, ?_⟩
  have leastRepresentable : Representable ((2 ^ 30)⁻¹) := by
    have power := @Float.representable_two_zpow (-30) (by norm_num)
    rwa [zpow_neg, zpow_ofNat] at power
  rcases Nat.eq_zero_or_pos (nanos / 10 ^ 9) with none | positive
  · rcases Nat.eq_zero_or_pos (nanos % 10 ^ 9) with nothing | some_
    · left
      have wholeZero : whole = 0 := by
        rw [none, Nat.cast_zero] at wholeRounds
        exact wholeRounds.eq_of_representable Float.representable_zero
      have restZero : rest = 0 := by
        rw [nothing, Nat.cast_zero, zero_div] at restRounds
        exact restRounds.eq_of_representable Float.representable_zero
      obtain ⟨sum, found, _, _, sumUnder⟩ := @Float.add_within _ _ _ _ 0 wholeKnown restFound
        wholeNonneg restNonneg Float.representable_zero (by rw [wholeZero, restZero, add_zero])
        (by positivity)
      rw [known] at found
      cases found
      exact le_antisymm sumUnder (wholeNonneg.trans wholeUnder)
    · right
      refine le_trans (restRounds.above _ leastRepresentable ?_) restUnder
      rw [le_div_iff₀ unitPositive]
      have one : (1 : ℚ) ≤ ((nanos % 10 ^ 9 : ℕ) : ℚ) := by exact_mod_cast some_
      refine le_trans ?_ one
      norm_num
  · right
    have one : (1 : ℚ) ≤ ((nanos / 10 ^ 9 : ℕ) : ℚ) := by exact_mod_cast positive
    refine le_trans ?_ ((wholeRounds.above 1 oneRepresentable one).trans wholeUnder)
    exact inv_le_one_of_one_le₀ (one_le_pow₀ (by norm_num))

theorem asSecsF64_round3 (range : nanos < 2 ^ 64 * 10 ^ 9) :
    (round3 (asSecsF64 nanos)).Within ((2 ^ 65 : ℕ) : ℚ) := by
  obtain ⟨seconds, known, nonneg, under, _⟩ := asSecsF64_within range
  refine round3_within ⟨seconds, known, nonneg, by exact_mod_cast under⟩ representable_two_pow
    (representable_two_pow_mul (by norm_num)) ?_
  norm_num

/-- A rate is a finite number whatever the counter and the interval. -/
theorem perSec_within (delta : UInt64) (range : nanos < 2 ^ 64 * 10 ^ 9) :
    (perSec delta (asSecsF64 nanos)).Within ((2 ^ 94 : ℕ) : ℚ) := by
  obtain ⟨seconds, known, nonneg, under, least⟩ := asSecsF64_within range
  rw [perSec]
  split
  · rename_i elapsed
    have positive := (Float.pos_iff known).mp elapsed
    have bounded : (2 ^ 30 : ℚ)⁻¹ ≤ seconds := least.resolve_left positive.ne'
    have scale : (2 : ℚ) ^ 64 / (2 ^ 30)⁻¹ = ((2 ^ 94 : ℕ) : ℚ) := by norm_num
    have divided := (Float.within_toFloat_max delta).div known (by positivity) bounded
    rw [scale] at divided
    have quotient := divided representable_two_pow (by norm_num)
    exact round1_within quotient representable_two_pow (representable_two_pow_mul (by norm_num))
      (by norm_num)
  · exact Float.within_zero.mono (Nat.cast_nonneg _)

end Intervals

section Percentages

theorem representable_hundred : Representable 100 := by
  exact_mod_cast @Float.representable_natCast 100 (by norm_num)

/-- A share as a percentage with one decimal. -/
theorem percent_within (share : (x / y).Within 1) : (round1 (x / y * 100)).Within 100 := by
  have hundred : (x / y * Float.ofNat 100).Within ((100 : ℕ) : ℚ) := by
    have scaled := @Float.Within.mul_ofNat _ _ 100 share (by norm_num)
      (by rw [one_mul]; exact_mod_cast representable_hundred) (by norm_num)
    rwa [one_mul] at scaled
  have rounded := round1_within hundred (Float.representable_natCast (by norm_num))
    (by exact_mod_cast @Float.representable_natCast 1000 (by norm_num)) (by norm_num)
  exact_mod_cast rounded

/-- The percentage that a count is of a larger one. -/
theorem ratio_within {part whole : UInt64} (nonzero : whole ≠ 0) (ordered : part ≤ whole) :
    (round1 (part.toFloat / whole.toFloat * 100)).Within 100 := by
  obtain ⟨partValue, partKnown, partRounds⟩ := Float.toFloat_rounds part
  obtain ⟨wholeValue, wholeKnown, wholeRounds⟩ := Float.toFloat_rounds whole
  have one : (1 : ℚ) ≤ whole.toNat := by
    have positive : whole.toNat ≠ 0 := fun zero => nonzero (UInt64.toNat_inj.mp zero)
    exact_mod_cast Nat.one_le_iff_ne_zero.mpr positive
  have positive : (1 : ℚ) ≤ wholeValue :=
    wholeRounds.above 1 (by exact_mod_cast @Float.representable_natCast 1 (by norm_num)) one
  exact percent_within (Float.share_within
    ⟨partValue, partKnown, partRounds.nonneg (Nat.cast_nonneg _),
      Float.toFloat_mono ordered partKnown wholeKnown⟩ wholeKnown (by linarith))

theorem within_zero_hundred : (0 : Float).Within 100 := Float.within_zero.mono (by norm_num)

theorem usedPercent_within {used total : UInt64} (ordered : used ≤ total) :
    (usedPercent UInt64.toFloat round1 used total).Within 100 := by
  rw [usedPercent]
  split
  · exact within_zero_hundred
  · rename_i nonzero
    exact ratio_within nonzero ordered

theorem saturatingSubU64_le (left right : UInt64) : saturatingSubU64 left right ≤ left := by
  rw [UInt64.le_iff_toNat_le, saturatingSubU64_toNat]
  exact Nat.sub_le _ _

theorem le_saturatingAddU64 (left right : UInt64) : left ≤ saturatingAddU64 left right := by
  have bounded := left.toNat_lt
  rw [UInt64.le_iff_toNat_le, saturatingAddU64]
  split
  · rename_i fits
    rw [UInt64.toNat_add, Nat.mod_eq_of_lt fits]
    exact Nat.le_add_right _ _
  · rw [UInt64.toNat_ofNat', Nat.mod_eq_of_lt (by decide)]
    omega

theorem Fs.fsPercent_within (used free : UInt64) : (fsPercent used free).Within 100 := by
  simp only [fsPercent]
  split
  · exact within_zero_hundred
  · rename_i nonzero
    exact ratio_within nonzero (le_saturatingAddU64 used free)

theorem Fs.usage_within (size free : UInt64) : (usage size free).2.Within 100 := by
  simp only [usage]
  split
  · exact within_zero_hundred
  · rename_i nonzero
    exact ratio_within nonzero (saturatingSubU64_le size free)

theorem memInfo_percent (kv : HashMap (List Char) UInt64) (cached : UInt64) :
    (memInfo kv cached).percent.Within 100 :=
  usedPercent_within (saturatingSubU64_le _ _)

theorem parseMeminfo_percent {content : List Char} {m : MemInfo}
    (parsed : parseMeminfo content = some m) : m.percent.Within 100 := by
  obtain ⟨kv, _, rest⟩ := Option.bind_eq_some_iff.mp parsed
  obtain ⟨cached, _, rest⟩ := Option.bind_eq_some_iff.mp rest
  cases rest
  exact memInfo_percent kv cached

theorem parseSwap_percent {meminfo vmstat : List Char} {pageSize : UInt64} {s : SwapInfo}
    (parsed : parseSwap meminfo vmstat pageSize = some s) : s.percent.Within 100 := by
  obtain ⟨⟨total, free⟩, _, rest⟩ := Option.bind_eq_some_iff.mp parsed
  cases rest
  exact usedPercent_within (saturatingSubU64_le _ _)

end Percentages

section Cpu

/-- Not between 0 and 1, as a count. -/
def Whole (a : ℚ) : Prop := a = 0 ∨ 1 ≤ a

/-- What the counters of one cycle contribute is known and not negative. -/
theorem exists_toFloat (n : UInt64) :
    ∃ value, n.toFloat.toRational? = some value ∧ 0 ≤ value ∧ value ≤ 2 ^ 64 ∧ Whole value := by
  obtain ⟨value, known, rounds⟩ := Float.toFloat_rounds n
  refine ⟨value, known, rounds.nonneg (Nat.cast_nonneg _), ?_, ?_⟩
  · refine rounds.below _ (by exact_mod_cast @Float.representable_two_zpow 64 (by norm_num)) ?_
    exact_mod_cast n.toNat_lt.le
  · rcases Nat.eq_zero_or_pos n.toNat with zero | positive
    · rw [zero, Nat.cast_zero] at rounds
      exact .inl (rounds.eq_of_representable Float.representable_zero)
    · refine .inr (rounds.above 1 ?_ (by exact_mod_cast positive))
      exact_mod_cast @Float.representable_natCast 1 (by norm_num)

/-- The percentages that are a part of the total: all but `guest`, which is taken out of
`user` but not held to it. -/
def CpuPercents.partsOfTotal {κ : Type} (p : CpuPercents κ) : List κ :=
  [p.total, p.user, p.system, p.idle, p.nice, p.iowait, p.irq, p.steal]

/-- One more counter in the sum of all of them. -/
theorem exists_sum {power : ℕ} (first : x.toRational? = some a) (second : y.toRational? = some b)
    (nonneg : 0 ≤ a) (under : a ≤ 2 ^ power) (whole : Whole a) (nonneg' : 0 ≤ b) (under' : b ≤ 2 ^ 64)
    (whole' : Whole b) (wide : 64 ≤ power ∧ power < 200) :
    ∃ sum, (x + y).toRational? = some sum ∧ a ≤ sum ∧ b ≤ sum ∧ sum ≤ 2 ^ (power + 1) ∧ Whole sum := by
  have smaller : (2 : ℚ) ^ 64 ≤ 2 ^ power := pow_le_pow_right₀ (by norm_num) wide.1
  have representable : Representable (2 ^ (power + 1)) := by
    exact_mod_cast @Float.representable_two_zpow (power + 1 : ℕ) (by omega)
  have range : (2 : ℚ) ^ (power + 1) ≤ 2 ^ 200 := pow_le_pow_right₀ (by norm_num) (by omega)
  obtain ⟨sum, known, left, right, most⟩ := Float.add_within first second nonneg nonneg' representable
    (by rw [pow_succ]; linarith) range
  refine ⟨sum, known, left, right, most, ?_⟩
  rcases whole with rfl | one
  · rcases whole' with rfl | one'
    · obtain ⟨zero, found, _, _, none⟩ := Float.add_within first second le_rfl le_rfl
        Float.representable_zero (by simp) (by positivity)
      rw [known] at found
      cases found
      exact .inl (le_antisymm none left)
    · exact .inr (one'.trans right)
  · exact .inr (one.trans left)

/-- A count as a percentage of a sum it need not be part of. -/
theorem part_within (part : x.Within (2 ^ 64)) (total : y.toRational? = some b) (least : 1 ≤ b) :
    (round1 (x / y * 100)).Within ((2 ^ 64 * 100 : ℕ) : ℚ) := by
  have representable : Representable (((2 ^ 64 : ℕ) : ℚ) * (100 : ℕ)) :=
    representable_two_pow_mul (by norm_num)
  have quotient : (x / y).Within ((2 ^ 64 : ℕ) : ℚ) := by
    have divided := part.div total one_pos least
    rw [div_one] at divided
    exact_mod_cast divided (by exact_mod_cast @representable_two_pow 64) (by norm_num)
  have scaled : (x / y * Float.ofNat 100).Within ((2 ^ 64 * 100 : ℕ) : ℚ) := by
    have product := @Float.Within.mul_ofNat _ _ 100 quotient (by norm_num) representable (by norm_num)
    exact_mod_cast product
  refine round1_within scaled (by exact_mod_cast representable) ?_ (by norm_num)
  have thousand : Representable (((2 ^ 64 : ℕ) : ℚ) * (1000 : ℕ)) :=
    representable_two_pow_mul (by norm_num)
  have same : ((2 ^ 64 * 100 : ℕ) : ℚ) * (10 : ℕ) = ((2 ^ 64 : ℕ) : ℚ) * (1000 : ℕ) := by norm_num
  rw [same]
  exact thousand

theorem cpuPercents_within {prev cur : CpuSample} :
    (∀ part ∈ (cpuPercents UInt64.toFloat round1 prev cur).partsOfTotal, part.Within 100) ∧
      (cpuPercents UInt64.toFloat round1 prev cur).guest.Within ((2 ^ 64 * 100 : ℕ) : ℚ) := by
  obtain ⟨user, userKnown, user₀, user₁, userWhole⟩ := exists_toFloat (saturatingSubU64 cur.user prev.user)
  obtain ⟨nice, niceKnown, nice₀, nice₁, niceWhole⟩ := exists_toFloat (saturatingSubU64 cur.nice prev.nice)
  obtain ⟨system, systemKnown, system₀, system₁, systemWhole⟩ :=
    exists_toFloat (saturatingSubU64 cur.system prev.system)
  obtain ⟨idle, idleKnown, idle₀, idle₁, idleWhole⟩ := exists_toFloat (saturatingSubU64 cur.idle prev.idle)
  obtain ⟨iowait, iowaitKnown, iowait₀, iowait₁, iowaitWhole⟩ :=
    exists_toFloat (saturatingSubU64 cur.iowait prev.iowait)
  obtain ⟨irq, irqKnown, irq₀, irq₁, irqWhole⟩ := exists_toFloat (saturatingSubU64 cur.irq prev.irq)
  obtain ⟨softirq, softirqKnown, softirq₀, softirq₁, softirqWhole⟩ :=
    exists_toFloat (saturatingSubU64 cur.softirq prev.softirq)
  obtain ⟨steal, stealKnown, steal₀, steal₁, stealWhole⟩ := exists_toFloat (saturatingSubU64 cur.steal prev.steal)
  obtain ⟨guest, guestKnown, guest₀, guest₁, _⟩ := exists_toFloat (saturatingSubU64 cur.guest prev.guest)
  obtain ⟨guestNice, guestNiceKnown, guestNice₀, guestNice₁, _⟩ :=
    exists_toFloat (saturatingSubU64 cur.guestNice prev.guestNice)
  -- Every partial sum is at least each of its two summands, so the total is at least every one.
  obtain ⟨sum₂, known₂, left₂, right₂, most₂, whole₂⟩ := @exists_sum _ _ _ _ 64 userKnown niceKnown user₀
    user₁ userWhole nice₀ nice₁ niceWhole (by omega)
  obtain ⟨sum₃, known₃, left₃, right₃, most₃, whole₃⟩ := exists_sum known₂ systemKnown (by linarith)
    most₂ whole₂ system₀ system₁ systemWhole (by omega)
  obtain ⟨sum₄, known₄, left₄, right₄, most₄, whole₄⟩ := exists_sum known₃ idleKnown (by linarith)
    most₃ whole₃ idle₀ idle₁ idleWhole (by omega)
  obtain ⟨sum₅, known₅, left₅, right₅, most₅, whole₅⟩ := exists_sum known₄ iowaitKnown (by linarith)
    most₄ whole₄ iowait₀ iowait₁ iowaitWhole (by omega)
  obtain ⟨sum₆, known₆, left₆, right₆, most₆, whole₆⟩ := exists_sum known₅ irqKnown (by linarith)
    most₅ whole₅ irq₀ irq₁ irqWhole (by omega)
  obtain ⟨sum₇, known₇, left₇, right₇, most₇, whole₇⟩ := exists_sum known₆ softirqKnown (by linarith)
    most₆ whole₆ softirq₀ softirq₁ softirqWhole (by omega)
  obtain ⟨total, totalKnown, left₈, right₈, most₈, whole₈⟩ := exists_sum known₇ stealKnown (by linarith)
    most₇ whole₇ steal₀ steal₁ stealWhole (by omega)
  simp only [cpuPercents]
  split
  · refine ⟨fun part member => ?_, Float.within_zero.mono (Nat.cast_nonneg _)⟩
    simp only [CpuPercents.partsOfTotal, List.mem_cons, List.not_mem_nil, or_false] at member
    rcases member with rfl | rfl | rfl | rfl | rfl | rfl | rfl | rfl <;> exact within_zero_hundred
  · rename_i positive
    have positive : 0 < total := not_le.mp fun le => positive ((Float.nonpos_iff totalKnown).mpr le)
    have share {x : Float} (within : x.Within total) := percent_within
      (Float.share_within within totalKnown positive)
    have range {value : ℚ} (under : value ≤ 2 ^ 64) : value ≤ 2 ^ 200 :=
      under.trans (pow_le_pow_right₀ (by norm_num) (by norm_num))
    have rangeTotal : total ≤ 2 ^ 200 := most₈.trans (pow_le_pow_right₀ (by norm_num) (by norm_num))
    refine ⟨fun part member => ?_, part_within ⟨guest, guestKnown, guest₀, guest₁⟩ totalKnown
      (whole₈.resolve_left positive.ne')⟩
    simp only [CpuPercents.partsOfTotal, List.mem_cons, List.not_mem_nil, or_false] at member
    rcases member with rfl | rfl | rfl | rfl | rfl | rfl | rfl | rfl
    · exact share (Float.sub_within totalKnown idleKnown idle₀ (by linarith) rangeTotal)
    · exact share ((Float.max_sub_within userKnown guestKnown user₀ guest₀ (range user₁)
        (range guest₁)).mono (by linarith))
    · exact share ⟨system, systemKnown, system₀, by linarith⟩
    · exact share ⟨idle, idleKnown, idle₀, by linarith⟩
    · exact share ((Float.max_sub_within niceKnown guestNiceKnown nice₀ guestNice₀ (range nice₁)
        (range guestNice₁)).mono (by linarith))
    · exact share ⟨iowait, iowaitKnown, iowait₀, by linarith⟩
    · exact share ⟨irq, irqKnown, irq₀, by linarith⟩
    · exact share ⟨steal, stealKnown, steal₀, by linarith⟩

end Cpu

end GlancesRs
