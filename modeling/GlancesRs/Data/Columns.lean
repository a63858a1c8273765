import Mathlib.Data.List.Basic
import Mathlib.Order.Basic

namespace GlancesRs.Data

/-! Columns of a line read by their index, and after dropping what cannot be
read: a dropped token moves everything behind it. -/

variable {α β : Type} {read : α → Option β} {default value : β} {tokens : List α} {token : α}
variable {i j count : ℕ}

/-- The value of the token at an index, `default` where there is none. -/
def columnAt (read : α → Option β) (default : β) (tokens : List α) (j : ℕ) : β :=
  (tokens[j]?.bind read).getD default

/-- The value at an index of the tokens that can be read. -/
def compactAt (read : α → Option β) (default : β) (tokens : List α) (j : ℕ) : β :=
  (tokens.filterMap read)[j]?.getD default

/-- What can be read behind the first token that cannot, as far as it reaches
the first `count` columns. -/
def movedValues (read : α → Option β) (count : ℕ) (tokens : List α) : List β :=
  ((tokens.dropWhile fun token => (read token).isSome).filterMap read).take
    (count - (tokens.takeWhile fun token => (read token).isSome).length)

@[simp] theorem columnAt_zero :
    columnAt read default (token :: tokens) 0 = (read token).getD default := rfl

@[simp] theorem columnAt_succ :
    columnAt read default (token :: tokens) (j + 1) = columnAt read default tokens j := rfl

theorem compactAt_of_none (unread : read token = none) :
    compactAt read default (token :: tokens) j = compactAt read default tokens j := by
  rw [compactAt, compactAt, List.filterMap_cons_none unread]

theorem compactAt_zero_of_some (known : read token = some value) :
    compactAt read default (token :: tokens) 0 = value := by
  rw [compactAt, List.filterMap_cons_some known]
  rfl

theorem compactAt_succ_of_some (known : read token = some value) :
    compactAt read default (token :: tokens) (j + 1) = compactAt read default tokens j := by
  rw [compactAt, compactAt, List.filterMap_cons_some known]
  rfl

theorem movedValues_of_some (known : read token = some value) :
    movedValues read (count + 1) (token :: tokens) = movedValues read count tokens := by
  simp [movedValues, known]

theorem movedValues_of_none (unread : read token = none) :
    movedValues read count (token :: tokens) = (tokens.filterMap read).take count := by
  simp [movedValues, unread]

/-- A value never moves to the right. -/
theorem exists_compact_of_column (found : tokens[i]?.bind read = some value) :
    ∃ m ≤ i, (tokens.filterMap read)[m]? = some value := by
  induction tokens generalizing i with
  | nil => simp at found
  | cons token tokens ih =>
      cases i with
      | zero =>
          have head : read token = some value := by simpa using found
          exact ⟨0, Nat.le_refl 0, by simp [head]⟩
      | succ i =>
          obtain ⟨m, within, there⟩ := ih (by simpa using found)
          cases known : read token with
          | none => exact ⟨m, by omega, by simpa [known] using there⟩
          | some other => exact ⟨m + 1, by omega, by simpa [known] using there⟩

theorem columnAt_eq_default_or : columnAt read default tokens i = default ∨
    ∃ m ≤ i, columnAt read default tokens i = compactAt read default tokens m := by
  rw [columnAt]
  cases found : tokens[i]?.bind read with
  | none => exact .inl rfl
  | some value =>
      obtain ⟨m, within, there⟩ := exists_compact_of_column found
      exact .inr ⟨m, within, by rw [compactAt, there]⟩

theorem forall_mem_take_iff : (∀ value ∈ (tokens.filterMap read).take count, value = default) ↔
    ∀ j < count, compactAt read default tokens j = default := by
  simp only [compactAt]
  generalize tokens.filterMap read = values
  constructor
  · intro zeros j inside
    cases there : values[j]? with
    | none => rfl
    | some value =>
        refine zeros value (List.mem_of_getElem? (i := j) ?_)
        rw [List.getElem?_take_of_lt inside, there]
  · intro zeros value listed
    obtain ⟨j, there⟩ := List.mem_iff_getElem?.mp listed
    rw [List.getElem?_take] at there
    split at there
    · rename_i inside
      have zero := zeros j inside
      rw [there] at zero
      exact zero
    · cases there

/-- Behind a token that cannot be read every column is `default` or none is kept. -/
theorem compact_behind_iff :
    (∀ j < count, compactAt read default tokens j =
        if j = 0 then default else columnAt read default tokens (j - 1)) ↔
      ∀ j < count, compactAt read default tokens j = default := by
  constructor
  · intro aligned j
    induction j using Nat.strongRecOn with
    | ind j ih =>
        intro inside
        rw [aligned j inside]
        split
        · rfl
        · rcases @columnAt_eq_default_or α β read default tokens (j - 1) with same | ⟨m, within, same⟩
          · exact same
          · rw [same]
            exact ih m (by omega) (by omega)
  · intro zeros j inside
    rw [zeros j inside]
    split
    · rfl
    · rcases @columnAt_eq_default_or α β read default tokens (j - 1) with same | ⟨m, within, same⟩
      · exact same.symm
      · rw [same]
        exact (zeros m (by omega)).symm

/-- Dropping tokens leaves the first columns as they are exactly when it moves
nothing but `default` into them. -/
theorem compact_aligned_iff :
    (∀ j < count, compactAt read default tokens j = columnAt read default tokens j) ↔
      ∀ value ∈ movedValues read count tokens, value = default := by
  induction tokens generalizing count with
  | nil => simp [compactAt, columnAt, movedValues]
  | cons token tokens ih =>
      cases known : read token with
      | some value =>
          cases count with
          | zero => simp [movedValues]
          | succ count =>
              rw [movedValues_of_some known, ← ih]
              constructor
              · intro aligned j inside
                have same := aligned (j + 1) (by omega)
                rwa [compactAt_succ_of_some known, columnAt_succ] at same
              · intro aligned j inside
                cases j with
                | zero => rw [compactAt_zero_of_some known, columnAt_zero, known, Option.getD_some]
                | succ j =>
                    rw [compactAt_succ_of_some known, columnAt_succ]
                    exact aligned j (by omega)
      | none =>
          rw [movedValues_of_none known, forall_mem_take_iff, ← compact_behind_iff]
          refine forall_congr' fun j => imp_congr_right fun _ => ?_
          rw [compactAt_of_none known]
          cases j with
          | zero => rw [columnAt_zero, known, if_pos rfl, Option.getD_none]
          | succ j => rw [columnAt_succ, if_neg (by omega), Nat.add_sub_cancel]

end GlancesRs.Data
