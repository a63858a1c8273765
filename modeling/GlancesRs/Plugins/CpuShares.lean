import GlancesRs.Plugins.Cpu
import Mathlib.Data.Rat.Cast.Order
import Mathlib.Tactic.NormNum
import Mathlib.Tactic.Ring

namespace GlancesRs

open Data

/-! The `cpu` percentages in exact arithmetic: which pairs of samples they split
the elapsed time for. -/

/-- The clamped difference of one counter. -/
def jiffies (prev cur : CpuSample) (counter : CpuSample → UInt64) : ℕ :=
  (saturatingSubU64 (counter cur) (counter prev)).toNat

/-- The denominator; the kernel counts guest time inside user time. -/
def totalJiffies (prev cur : CpuSample) : ℕ :=
  jiffies prev cur CpuSample.user + jiffies prev cur CpuSample.nice +
    jiffies prev cur CpuSample.system + jiffies prev cur CpuSample.idle +
    jiffies prev cur CpuSample.iowait + jiffies prev cur CpuSample.irq +
    jiffies prev cur CpuSample.softirq + jiffies prev cur CpuSample.steal

/-- `cpu_percents` over the rationals and without `round1`. -/
def exactPercents (prev cur : CpuSample) : CpuPercents ℚ :=
  cpuPercents (fun counter => (counter.toNat : ℚ)) id prev cur

def CpuPercents.shares {κ : Type} (p : CpuPercents κ) : List κ :=
  [p.total, p.user, p.nice, p.system, p.idle, p.iowait, p.irq, p.steal, p.guest]

structure Partition (p : CpuPercents ℚ) : Prop where
  bounded : ∀ share ∈ p.shares, 0 ≤ share ∧ share ≤ 100
  busy : p.total = 100 - p.idle
  parts : p.user + p.nice + p.system + p.iowait + p.irq + p.steal + p.guest ≤ p.total

section Shares

/-- `part` as a percentage of `whole`. -/
def shareOf (whole part : ℕ) : ℚ := part / whole * 100

variable {whole part other : ℕ}

theorem shareOf_add : shareOf whole part + shareOf whole other = shareOf whole (part + other) := by
  simp only [shareOf, Nat.cast_add]
  ring

theorem shareOf_le_iff (positive : 0 < whole) :
    shareOf whole part ≤ shareOf whole other ↔ part ≤ other := by
  have divisor : (0 : ℚ) < whole := by exact_mod_cast positive
  rw [shareOf, shareOf, mul_le_mul_iff_left₀ (by norm_num), div_le_div_iff_of_pos_right divisor,
    Nat.cast_le]

theorem shareOf_self (positive : 0 < whole) : shareOf whole whole = 100 := by
  have divisor : (whole : ℚ) ≠ 0 := by exact_mod_cast positive.ne'
  rw [shareOf, div_self divisor, one_mul]

theorem shareOf_bounded (positive : 0 < whole) (within : part ≤ whole) :
    0 ≤ shareOf whole part ∧ shareOf whole part ≤ 100 := by
  constructor
  · have nothing : shareOf whole 0 = 0 := by simp [shareOf]
    rw [← nothing]
    exact (shareOf_le_iff positive).mpr (Nat.zero_le part)
  · rw [← shareOf_self positive]
    exact (shareOf_le_iff positive).mpr within

end Shares

theorem cast_tsub_eq_max (left right : ℕ) : max ((left : ℚ) - right) 0 = (left - right : ℕ) := by
  rcases Nat.le_total left right with below | above
  · have negative : (left : ℚ) - right ≤ 0 := sub_nonpos.mpr (by exact_mod_cast below)
    rw [max_eq_right negative, Nat.sub_eq_zero_of_le below, Nat.cast_zero]
  · have nonneg : (0 : ℚ) ≤ left - right := sub_nonneg.mpr (by exact_mod_cast above)
    rw [max_eq_left nonneg, Nat.cast_sub above]

variable {prev cur : CpuSample}

/-- Every percentage is a share of the denominator: `user` and `nice` of what is
left of them, `guest` of all that its counter says. -/
theorem exactPercents_eq (positive : 0 < totalJiffies prev cur) :
    exactPercents prev cur =
      let j := jiffies prev cur
      let share := shareOf (totalJiffies prev cur)
      { total := share (totalJiffies prev cur - j CpuSample.idle)
        user := share (j CpuSample.user - j CpuSample.guest)
        nice := share (j CpuSample.nice - j CpuSample.guestNice)
        system := share (j CpuSample.system)
        idle := share (j CpuSample.idle)
        iowait := share (j CpuSample.iowait)
        irq := share (j CpuSample.irq)
        steal := share (j CpuSample.steal)
        guest := share (j CpuSample.guest) } := by
  have sum : (totalJiffies prev cur : ℚ) = jiffies prev cur CpuSample.user +
      jiffies prev cur CpuSample.nice + jiffies prev cur CpuSample.system +
      jiffies prev cur CpuSample.idle + jiffies prev cur CpuSample.iowait +
      jiffies prev cur CpuSample.irq + jiffies prev cur CpuSample.softirq +
      jiffies prev cur CpuSample.steal := by
    simp only [totalJiffies]
    push_cast
    rfl
  have counted : ¬ (totalJiffies prev cur : ℚ) ≤ 0 := by
    rw [not_le]
    exact_mod_cast positive
  have idle : jiffies prev cur CpuSample.idle ≤ totalJiffies prev cur := by
    simp only [totalJiffies]
    omega
  simp only [shareOf, ← cast_tsub_eq_max, Nat.cast_sub idle]
  rw [sum] at counted ⊢
  simp only [exactPercents, cpuPercents]
  exact if_neg counted

/-- The percentages split the time exactly as long as guest time is covered by
what it is taken out of: `guest` itself is not clamped to `user`. -/
theorem partition_iff (positive : 0 < totalJiffies prev cur) :
    Partition (exactPercents prev cur) ↔
      jiffies prev cur CpuSample.guest ≤
        jiffies prev cur CpuSample.user + jiffies prev cur CpuSample.softirq +
          min (jiffies prev cur CpuSample.nice) (jiffies prev cur CpuSample.guestNice) := by
  have sum : totalJiffies prev cur = jiffies prev cur CpuSample.user +
      jiffies prev cur CpuSample.nice + jiffies prev cur CpuSample.system +
      jiffies prev cur CpuSample.idle + jiffies prev cur CpuSample.iowait +
      jiffies prev cur CpuSample.irq + jiffies prev cur CpuSample.softirq +
      jiffies prev cur CpuSample.steal := rfl
  rw [exactPercents_eq positive]
  constructor
  · intro split
    have parts := split.parts
    simp only [shareOf_add] at parts
    rw [shareOf_le_iff positive] at parts
    omega
  · intro covered
    refine ⟨?_, ?_, ?_⟩
    · intro share listed
      simp only [CpuPercents.shares, List.mem_cons, List.not_mem_nil, or_false] at listed
      rcases listed with rfl | rfl | rfl | rfl | rfl | rfl | rfl | rfl | rfl <;>
        apply shareOf_bounded positive <;> omega
    · rw [eq_sub_iff_add_eq, shareOf_add, ← shareOf_self positive]
      congr 1
      omega
    · simp only [shareOf_add]
      rw [shareOf_le_iff positive]
      omega

/-- A boot's counters with `user`, `idle` and `guest` jiffies and nothing else. -/
def guestSample (user idle guest : UInt64) : CpuSample :=
  { user, nice := 0, system := 0, idle, iowait := 0, irq := 0, softirq := 0, steal := 0, guest,
    guestNice := 0, ctxt := 0, intr := 0, softirqTotal := 0 }

theorem guestWithinUser_partition :
    Partition (exactPercents (guestSample 0 0 0) (guestSample 60 40 20)) :=
  (partition_iff (by decide)).mpr (by decide)

/-- 300 guest jiffies of 100 counted ones are published as 300 percent. -/
theorem guestBeyondUser_not_partition :
    0 < totalJiffies (guestSample 0 0 0) (guestSample 10 90 300) ∧
      (exactPercents (guestSample 0 0 0) (guestSample 10 90 300)).guest = 300 ∧
      ¬ Partition (exactPercents (guestSample 0 0 0) (guestSample 10 90 300)) := by
  have share : (exactPercents (guestSample 0 0 0) (guestSample 10 90 300)).guest = 300 := by
    decide +kernel
  refine ⟨by decide, share, fun split => ?_⟩
  have listed : 300 ∈ (exactPercents (guestSample 0 0 0) (guestSample 10 90 300)).shares := by
    simp [CpuPercents.shares, share]
  have bounded := (split.bounded 300 listed).2
  norm_num at bounded

end GlancesRs
