import Mathlib.Data.List.Basic

namespace GlancesRs.Data

/-! Runs over a list of items whose steps can fail. -/

variable {σ α β : Type} {step : σ → α → Option σ} {read : α → Option β} {fits : β → Prop}
variable {get : σ → β}
variable {state after : σ} {x : α} {xs : List α}

theorem foldlM_cons_eq_some : (x :: xs).foldlM step state = some after ↔
    ∃ next, step state x = some next ∧ xs.foldlM step next = some after := by
  rw [List.foldlM_cons]
  exact Option.bind_eq_some_iff

/-- Where a step fails for what it reads and never for its state, a run goes
through exactly when everything it reads fits. -/
theorem foldlM_isSome_iff
    (steps : ∀ state x, (step state x).isSome ↔ ∀ entry, read x = some entry → fits entry) :
    (xs.foldlM step state).isSome ↔ ∀ entry ∈ xs.filterMap read, fits entry := by
  induction xs generalizing state with
  | nil => simp
  | cons x xs ih =>
      have head := steps state x
      have split : (∀ entry ∈ (x :: xs).filterMap read, fits entry) ↔
          (∀ entry, read x = some entry → fits entry) ∧ ∀ entry ∈ xs.filterMap read, fits entry := by
        cases found : read x with
        | none => simp [found]
        | some entry => simp [found]
      rw [List.foldlM_cons, split, ← head]
      cases stepped : step state x with
      | none => simp
      | some next =>
          rw [Option.bind_eq_bind, Option.bind_some, ih]
          exact (and_iff_right rfl).symm

/-- Where each step sets a part to what it reads, if anything, the last item that is
read decides. -/
theorem foldlM_last
    (steps : ∀ state x next, step state x = some next → get next = (read x).getD (get state))
    (ran : xs.foldlM step state = some after) :
    get after = (xs.filterMap read).getLast?.getD (get state) := by
  induction xs generalizing state with
  | nil =>
      cases ran
      rfl
  | cons x xs ih =>
      obtain ⟨next, stepped, rest⟩ := foldlM_cons_eq_some.mp ran
      rw [ih rest, steps state x next stepped]
      cases found : read x with
      | none => rw [List.filterMap_cons_none found, Option.getD_none]
      | some entry =>
          rw [List.filterMap_cons_some found, List.getLast?_cons, Option.getD_some]
          cases (xs.filterMap read).getLast? <;> rfl

theorem foldl_last {step : σ → α → σ} {get : σ → β}
    (steps : ∀ state x, get (step state x) = (read x).getD (get state)) :
    get (xs.foldl step state) = (xs.filterMap read).getLast?.getD (get state) := by
  have ran : xs.foldlM (fun state x => some (step state x)) state = some (xs.foldl step state) :=
    List.foldlM_pure
  refine foldlM_last (fun state x next stepped => ?_) ran
  cases stepped
  exact steps state x

end GlancesRs.Data
