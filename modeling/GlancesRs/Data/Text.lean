import Mathlib.Data.List.Basic

namespace GlancesRs.Data

/-! The `str` searches the server uses, as list functions over any alphabet,
each with the decomposition of the text it finds. -/

variable {α : Type} [DecidableEq α] {mark : α} {text piece before after : List α}

/-- `split_once`: around the first `mark`. -/
def splitOnce (mark : α) : List α → Option (List α × List α)
  | [] => none
  | x :: rest =>
      if x = mark then some ([], rest)
      else (splitOnce mark rest).map fun (before, after) => (x :: before, after)

theorem splitOnce_eq_some :
    splitOnce mark text = some (before, after) ↔ text = before ++ mark :: after ∧ mark ∉ before := by
  induction text generalizing before with
  | nil => simp [splitOnce]
  | cons x rest ih =>
      simp only [splitOnce]
      split
      · rename_i same
        subst same
        cases before with
        | nil => simp
        | cons y before => simp +contextual [Ne.symm]
      · rename_i different
        cases before with
        | nil => simp [different]
        | cons y before =>
            simp only [Option.map_eq_some_iff, Prod.mk.injEq, Prod.exists, List.cons.injEq,
              List.cons_append, List.mem_cons, not_or]
            constructor
            · intro parts
              obtain ⟨start, tail, found, ⟨rfl, rfl⟩, rfl⟩ := parts
              obtain ⟨same, absent⟩ := ih.mp found
              exact ⟨⟨rfl, same⟩, Ne.symm different, absent⟩
            · intro parts
              obtain ⟨⟨rfl, same⟩, _, absent⟩ := parts
              exact ⟨before, after, ih.mpr ⟨same, absent⟩, ⟨rfl, rfl⟩, rfl⟩

theorem splitOnce_eq_none : splitOnce mark text = none ↔ mark ∉ text := by
  induction text with
  | nil => simp [splitOnce]
  | cons x rest ih =>
      simp only [splitOnce]
      split
      · rename_i same
        simp [same]
      · rename_i different
        simp [ih, Ne.symm different]

/-- `rsplit_once`: around the last `mark`. -/
def rsplitOnce (mark : α) (text : List α) : Option (List α × List α) :=
  (splitOnce mark text.reverse).map fun (after, before) => (before.reverse, after.reverse)

theorem rsplitOnce_eq_some :
    rsplitOnce mark text = some (before, after) ↔ text = before ++ mark :: after ∧ mark ∉ after := by
  have turned : text.reverse = after.reverse ++ mark :: before.reverse ↔
      text = before ++ mark :: after := by
    have mirrored := @List.reverse_inj _ text (before ++ mark :: after)
    rw [← mirrored]
    simp
  have same : mark ∈ after.reverse ↔ mark ∈ after := List.mem_reverse
  rw [← turned, ← same, ← splitOnce_eq_some, rsplitOnce,
    Option.map_eq_some_iff]
  constructor
  · intro mirrored
    obtain ⟨⟨last, start⟩, found, same⟩ := mirrored
    cases same
    simpa using found
  · intro found
    exact ⟨_, found, by simp⟩

theorem rsplitOnce_eq_none : rsplitOnce mark text = none ↔ mark ∉ text := by
  rw [rsplitOnce, Option.map_eq_none_iff, splitOnce_eq_none, List.mem_reverse]

/-- `split(mark).next()`: the text before the first `mark`, all of it without one. -/
def firstPiece (mark : α) (text : List α) : List α :=
  match splitOnce mark text with
  | some (before, _) => before
  | none => text

theorem firstPiece_eq_iff :
    firstPiece mark text = piece ↔
      mark ∉ piece ∧ (text = piece ∨ ∃ after, text = piece ++ mark :: after) := by
  cases found : splitOnce mark text with
  | none =>
      have absent := splitOnce_eq_none.mp found
      simp only [firstPiece, found]
      constructor
      · intro same
        subst same
        exact ⟨absent, .inl rfl⟩
      · intro parts
        rcases parts with ⟨_, rfl | ⟨after, rfl⟩⟩
        · rfl
        · simp at absent
  | some parts =>
      obtain ⟨before, after⟩ := parts
      obtain ⟨rfl, absent⟩ := splitOnce_eq_some.mp found
      simp only [firstPiece, found]
      constructor
      · intro same
        subst same
        exact ⟨absent, .inr ⟨after, rfl⟩⟩
      · intro parts
        rcases parts with ⟨missing, rfl | ⟨tail, same⟩⟩
        · simp at missing
        · have other := splitOnce_eq_some.mpr ⟨same, missing⟩
          simp only [found, Option.some.injEq, Prod.mk.injEq] at other
          exact other.1

end GlancesRs.Data
