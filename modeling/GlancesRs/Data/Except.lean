import Mathlib.Data.List.Basic

namespace GlancesRs.Data

/-! What success says of a fallible computation: each part succeeded; and what an
error says: the parts before the one that failed succeeded. -/

variable {ε δ α β : Type} {value : α} {result : β} {reason : ε} {values : List α}

theorem except_bind_eq_ok {first : Except ε α} {next : α → Except ε β} :
    (first >>= next) = .ok result ↔ ∃ value, first = .ok value ∧ next value = .ok result := by
  cases first with
  | error reason => simp [bind, Except.bind]
  | ok value => simp [bind, Except.bind]

theorem except_bind_unit_eq_ok {first : Except ε Unit} {next : Unit → Except ε β} :
    (first >>= next) = .ok result ↔ first = .ok () ∧ next () = .ok result := by
  rw [except_bind_eq_ok]
  exact ⟨fun ⟨(), left, right⟩ => ⟨left, right⟩, fun ⟨left, right⟩ => ⟨(), left, right⟩⟩

theorem except_forM_eq_ok {check : α → Except ε Unit} :
    values.forM check = .ok () ↔ ∀ value ∈ values, check value = .ok () := by
  induction values with
  | nil => simp [pure, Except.pure]
  | cons value rest ih =>
      rw [List.forM_eq_forM, List.forM_cons, except_bind_unit_eq_ok, ← List.forM_eq_forM, ih]
      simp

theorem except_bind_eq_error {first : Except ε α} {next : α → Except ε β} :
    (first >>= next) = .error reason ↔
      first = .error reason ∨ ∃ value, first = .ok value ∧ next value = .error reason := by
  cases first with
  | error reason => simp [bind, Except.bind]
  | ok value => simp [bind, Except.bind]

theorem except_mapError_eq_ok {first : Except ε α} {label : ε → δ} :
    first.mapError label = .ok value ↔ first = .ok value := by
  cases first <;> simp [Except.mapError]

theorem except_mapError_eq_error {first : Except ε α} {label : ε → δ} {labeled : δ} :
    first.mapError label = .error labeled ↔
      ∃ reason, first = .error reason ∧ label reason = labeled := by
  cases first <;> simp [Except.mapError]

/-- Two fallible computations with related outcomes. -/
inductive ExceptRel (errors : ε → ε → Prop) (values : α → α → Prop) : Except ε α → Except ε α → Prop where
  | ok {first second : α} (related : values first second) : ExceptRel errors values (.ok first) (.ok second)
  | error {first second : ε} (related : errors first second) :
      ExceptRel errors values (.error first) (.error second)

variable {errors : ε → ε → Prop} {labeled : δ → δ → Prop} {values : α → α → Prop} {results : β → β → Prop}

theorem ExceptRel.bind {first second : Except ε α} {next later : α → Except ε β}
    (started : ExceptRel errors values first second)
    (continued : ∀ left right, values left right → ExceptRel errors results (next left) (later right)) :
    ExceptRel errors results (first >>= next) (second >>= later) := by
  cases started with
  | ok related => exact continued _ _ related
  | error related => exact .error related

theorem ExceptRel.mapError {first second : Except ε α} {label : ε → δ}
    (started : ExceptRel errors values first second)
    (labels : ∀ left right, errors left right → labeled (label left) (label right)) :
    ExceptRel labeled values (first.mapError label) (second.mapError label) := by
  cases started with
  | ok related => exact .ok related
  | error related => exact .error (labels _ _ related)

theorem ExceptRel.refl (reflects : ∀ reason, errors reason reason) (keeps : ∀ value, values value value) :
    ∀ outcome, ExceptRel errors values outcome outcome
  | .ok value => .ok (keeps value)
  | .error reason => .error (reflects reason)

end GlancesRs.Data
