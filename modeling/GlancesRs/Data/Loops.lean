import Mathlib.Order.Basic

namespace GlancesRs.Data

/-! `while` loops whose body can fail: an invariant, and a measure that every
pass lowers. -/

variable {σ : Type}

/-- The loop in at most `passes` passes; `none` where its body fails or it needs more. -/
def whileLoop (guard : σ → Bool) (body : σ → Option σ) : ℕ → σ → Option σ
  | 0, state => if guard state then none else some state
  | passes + 1, state =>
      if guard state then (body state).bind (whileLoop guard body passes) else some state

variable {guard : σ → Bool} {body : σ → Option σ} {invariant : σ → Prop} {left : σ → ℕ}
variable {passes : ℕ} {state next : σ}

theorem whileLoop_stop (stopped : guard state = false) :
    whileLoop guard body passes state = some state := by
  cases passes <;> simp [whileLoop, stopped]

theorem whileLoop_pass (goes : guard state = true) (passed : body state = some next) :
    whileLoop guard body (passes + 1) state = whileLoop guard body passes next := by
  simp [whileLoop, goes, passed]

/-- Where every pass from an invariant state goes through, keeps the invariant
and lowers the measure, the loop ends in an invariant state. -/
theorem whileLoop_total
    (pass : ∀ state, invariant state → guard state = true →
      ∃ next, body state = some next ∧ invariant next ∧ left next < left state)
    (holds : invariant state) (enough : left state ≤ passes) :
    ∃ final, whileLoop guard body passes state = some final ∧ invariant final ∧
      guard final = false := by
  induction passes generalizing state with
  | zero =>
      cases goes : guard state with
      | false => exact ⟨state, whileLoop_stop goes, holds, goes⟩
      | true =>
          obtain ⟨next, _, _, lower⟩ := pass state holds goes
          omega
  | succ passes ih =>
      cases goes : guard state with
      | false => exact ⟨state, whileLoop_stop goes, holds, goes⟩
      | true =>
          obtain ⟨next, passed, kept, lower⟩ := pass state holds goes
          rw [whileLoop_pass goes passed]
          exact ih kept (by omega)

end GlancesRs.Data
