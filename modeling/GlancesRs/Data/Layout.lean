import GlancesRs.Data.Decimal
import GlancesRs.Data.Words
import Mathlib.Data.List.Forall2
import Mathlib.Tactic.IntervalCases

namespace GlancesRs.Data

/-! Texts of lines of words, whatever the blanks between the words, and the decimal
numbers among them: what was written is what is read. -/

/-- `line` is the words with blanks around them, and one at least between two. -/
inductive Laid : List Char → List (List Char) → Prop where
  | nil : Laid [] []
  | blank {mark : Char} {line : List Char} {words : List (List Char)}
      (white : isWhitespace mark = true) (rest : Laid line words) : Laid (mark :: line) words
  | last {word : List Char} (nonempty : word ≠ []) (solid : ∀ c ∈ word, isWhitespace c = false) :
      Laid word [word]
  | word {word line : List Char} {mark : Char} {words : List (List Char)} (nonempty : word ≠ [])
      (solid : ∀ c ∈ word, isWhitespace c = false) (white : isWhitespace mark = true)
      (rest : Laid line words) : Laid (word ++ mark :: line) (word :: words)

/-- `text` is lines that each show a value. -/
inductive LinesOf {β : Type} (Shows : List Char → β → Prop) : List Char → List β → Prop where
  | nil : LinesOf Shows [] []
  | line {line text : List Char} {value : β} {values : List β} (unbroken : '\n' ∉ line)
      (ended : line.getLast? ≠ some '\r') (shown : Shows line value)
      (rest : LinesOf Shows text values) : LinesOf Shows (line ++ '\n' :: text) (value :: values)

/-- The words with one blank between two, and a line for each row. -/
def rowText : List (List Char) → List Char
  | [] => []
  | [word] => word
  | word :: rest => word ++ ' ' :: rowText rest

def tableText (rows : List (List (List Char))) : List Char :=
  rows.flatMap fun row => rowText row ++ ['\n']

/-- A number as it is written. -/
def decimal (n : UInt64) : List Char := Nat.toDigits 10 n.toNat

section Words

variable {β : Type} {Shows : List Char → β → Prop} {line text : List Char}
variable {words : List (List Char)} {values : List β}

theorem splitWhitespace_blank {mark : Char} (white : isWhitespace mark = true) :
    splitWhitespace (mark :: line) = splitWhitespace line := by
  have cut := @splitWhitespace_append mark [] line white
  exact cut

theorem splitWhitespace_laid (laid : Laid line words) : splitWhitespace line = words := by
  induction laid with
  | nil => rfl
  | blank white _ ih => rw [splitWhitespace_blank white, ih]
  | last nonempty solid => exact splitWhitespace_word nonempty solid
  | word nonempty solid white _ ih =>
      rw [splitWhitespace_append white, splitWhitespace_word nonempty solid, ih,
        List.singleton_append]

theorem lines_linesOf (written : LinesOf Shows text values) :
    List.Forall₂ Shows (lines text) values := by
  induction written with
  | nil => exact .nil
  | line unbroken ended shown _ ih =>
      rw [lines_append_newline unbroken ended]
      exact .cons shown ih

/-- What each line shows is what is read from the whole text. -/
theorem map_lines_linesOf {read : List Char → β} (reads : ∀ line value, Shows line value →
    read line = value) (written : LinesOf Shows text values) : (lines text).map read = values := by
  have shown := lines_linesOf written
  generalize lines text = found at shown
  clear written
  induction shown with
  | nil => rfl
  | cons first _ ih => rw [List.map_cons, reads _ _ first, ih]

/-- A word as it can stand in a row. -/
def Solid (word : List Char) : Prop := word ≠ [] ∧ ∀ c ∈ word, isWhitespace c = false

instance (word : List Char) : Decidable (Solid word) :=
  decidable_of_iff (word ≠ [] ∧ word.any isWhitespace = false) (by simp [Solid])

theorem laid_rowText (solid : ∀ word ∈ words, Solid word) : Laid (rowText words) words := by
  induction words with
  | nil => exact .nil
  | cons word rest ih =>
      obtain ⟨nonempty, plain⟩ := solid word (by simp)
      cases rest with
      | nil => exact .last nonempty plain
      | cons next more =>
          exact .word nonempty plain rfl (ih fun word inside => solid word (by simp [inside]))

theorem mem_rowText {c : Char} (solid : ∀ word ∈ words, Solid word) (inside : c ∈ rowText words) :
    c = ' ' ∨ isWhitespace c = false := by
  induction words with
  | nil => cases inside
  | cons word rest ih =>
      obtain ⟨_, plain⟩ := solid word (by simp)
      cases rest with
      | nil => exact .inr (plain c inside)
      | cons next more =>
          rw [rowText, List.mem_append, List.mem_cons] at inside
          · rcases inside with first | blank | later
            · exact .inr (plain c first)
            · exact .inl blank
            · exact ih (fun word inside => solid word (by simp [inside])) later
          · exact List.cons_ne_nil _ _

/-- The plain layout is one of the layouts. -/
theorem linesOf_tableText {rows : List (List (List Char))}
    (solid : ∀ row ∈ rows, ∀ word ∈ row, Solid word) : LinesOf Laid (tableText rows) rows := by
  induction rows with
  | nil => exact .nil
  | cons row rows ih =>
      have first : ∀ word ∈ row, Solid word := solid row (by simp)
      have noBreak : ∀ mark : Char, mark ≠ ' ' → isWhitespace mark = true → mark ∉ rowText row := by
        intro mark other white inside
        rcases mem_rowText first inside with blank | plain
        · exact other blank
        · rw [white] at plain
          cases plain
      have ended : (rowText row).getLast? ≠ some '\r' := fun last =>
        noBreak '\r' (by decide) rfl (List.mem_of_getLast? last)
      rw [tableText, List.flatMap_cons, List.append_assoc, List.singleton_append]
      exact .line (noBreak '\n' (by decide) rfl) ended (laid_rowText first)
        (ih fun row inside => solid row (by simp [inside]))

end Words

section Numbers

variable {radix bound digit n : ℕ}

theorem toDigit_digit (small : digit < radix) (within : radix ≤ 16) :
    toDigit radix (Nat.digitChar digit) = some digit := by
  have known : digit < 16 := by omega
  interval_cases digit <;> simp [toDigit, Nat.digitChar, small]

/-- The digits of a number are read as the number, the last one after the others. -/
theorem foldlM_toDigits (two : 1 < radix) (within : radix ≤ 16) :
    (Nat.toDigits radix n).foldlM (fun value c => (toDigit radix c).map (value * radix + ·)) 0 =
      some n := by
  induction n using Nat.strong_induction_on with
  | _ n ih =>
      rw [Nat.toDigits_eq_if two]
      split
      · rename_i small
        rw [List.foldlM_cons, toDigit_digit small within]
        simp
      · rename_i large
        have positive : 0 < n := by omega
        rw [List.foldlM_append, ih (n / radix) (Nat.div_lt_self positive two)]
        rw [Option.bind_eq_bind, Option.bind_some, List.foldlM_cons,
          toDigit_digit (Nat.mod_lt n (by omega)) within]
        simp [Nat.div_add_mod']

theorem digitsValue_toDigits (two : 1 < radix) (within : radix ≤ 16) :
    digitsValue radix (Nat.toDigits radix n) = some n := by
  rw [digitsValue, if_neg Nat.toDigits_ne_nil, foldlM_toDigits two within]

/-- A number has no sign. -/
theorem toDigits_unsigned {sign : Char} {rest : List Char} (two : 1 < radix) (within : radix ≤ 16)
    (noDigit : toDigit radix sign = none) : Nat.toDigits radix n ≠ sign :: rest := by
  intro signed
  have value := @digitsValue_toDigits radix n two within
  rw [signed, digitsValue, if_neg (List.cons_ne_nil _ _), List.foldlM_cons, noDigit] at value
  cases value

theorem fromStrRadix_toDigits (two : 1 < radix) (within : radix ≤ 16) (fits : n < bound) :
    fromStrRadix radix bound (Nat.toDigits radix n) = some n := by
  have plus : toDigit radix '+' = none := rfl
  rw [fromStrRadix.eq_def]
  split
  · rename_i rest signed
    exact absurd signed (toDigits_unsigned two within plus)
  · simp only [digitsValue_toDigits two within, Option.filter_some]
    rw [if_pos (by simpa using fits)]

theorem mem_toDigits {c : Char} (two : 1 < radix) (inside : c ∈ Nat.toDigits radix n) :
    ∃ digit < radix, c = Nat.digitChar digit := by
  induction n using Nat.strong_induction_on with
  | _ n ih =>
      rw [Nat.toDigits_eq_if two] at inside
      split at inside
      · rename_i small
        exact ⟨n, small, List.mem_singleton.mp inside⟩
      · rename_i large
        rcases List.mem_append.mp inside with earlier | last
        · exact ih (n / radix) (Nat.div_lt_self (by omega) two) earlier
        · exact ⟨n % radix, Nat.mod_lt n (by omega), List.mem_singleton.mp last⟩

theorem parseU64_decimal (n : UInt64) : parseU64 (decimal n) = some n := by
  rw [parseU64, decimal, fromStrRadix_toDigits (by decide) (by decide) n.toNat_lt, Option.map_some,
    UInt64.ofNat_toNat]

theorem parseI64_toDigits (fits : n < 2 ^ 63) : parseI64 (Nat.toDigits 10 n) = some (n : ℤ) := by
  have minus : toDigit 10 '-' = none := rfl
  rw [parseI64.eq_def]
  split
  · rename_i rest signed
    exact absurd signed (toDigits_unsigned (by decide) (by decide) minus)
  · rw [fromStrRadix_toDigits (by decide) (by decide) fits]
    rfl

theorem filterMap_decimal (numbers : List UInt64) :
    (numbers.map decimal).filterMap parseU64 = numbers := by
  induction numbers with
  | nil => rfl
  | cons n rest ih => rw [List.map_cons, List.filterMap_cons_some (parseU64_decimal n), ih]

end Numbers

end GlancesRs.Data
