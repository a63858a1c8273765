import Mathlib.Data.List.Basic

namespace GlancesRs.Data

/-! White space, and the lines and words of a text, as `str` has them. -/

/-- The `White_Space` property, which `str::trim` strips. -/
def isWhitespace (c : Char) : Bool :=
  9 ≤ c.toNat && c.toNat ≤ 13 || 0x2000 ≤ c.toNat && c.toNat ≤ 0x200A ||
    [0x20, 0x85, 0xA0, 0x1680, 0x2028, 0x2029, 0x202F, 0x205F, 0x3000].contains c.toNat

def trim (text : String) : String :=
  .ofList ((text.toList.dropWhile isWhitespace).reverse.dropWhile isWhitespace).reverse

/-- `str::lines`: a line ends at a newline, with the carriage return before it. -/
def lines : List Char → List (List Char)
  | [] => []
  | '\r' :: '\n' :: rest => [] :: lines rest
  | '\n' :: rest => [] :: lines rest
  | c :: rest =>
      match lines rest with
      | [] => [[c]]
      | line :: more => (c :: line) :: more

/-- `split_whitespace`. -/
def splitWhitespace (text : List Char) : List (List Char) :=
  (text.splitOnP isWhitespace).filter (· ≠ [])

variable {c mark : Char} {text line word before after rest : List Char}

theorem isWhitespace_of_printable (above : 33 ≤ c.toNat) (below : c.toNat < 127) :
    isWhitespace c = false := by
  simp only [isWhitespace, Bool.or_eq_false_iff, Bool.and_eq_false_iff, decide_eq_false_iff_not,
    List.contains_eq_mem]
  refine ⟨⟨by omega, by omega⟩, fun listed => ?_⟩
  simp only [List.mem_cons, List.not_mem_nil, or_false] at listed
  omega

theorem isWhitespace_of_isDigit (digit : c.isDigit = true) : isWhitespace c = false := by
  obtain ⟨above, below⟩ := Char.isDigit_iff_toNat.mp digit
  have first : '0'.toNat = 48 := rfl
  have last : '9'.toNat = 57 := rfl
  exact isWhitespace_of_printable (by omega) (by omega)

theorem lines_cons (notNewline : c ≠ '\n') (notReturn : c = '\r' → text.head? ≠ some '\n') :
    lines (c :: text) = match lines text with
      | [] => [[c]]
      | line :: more => (c :: line) :: more := by
  rw [lines]
  · intro rest isReturn starts
    exact notReturn isReturn (by rw [starts]; rfl)
  · exact notNewline

theorem lines_append_newline (unbroken : '\n' ∉ line) (ended : line.getLast? ≠ some '\r') :
    lines (line ++ '\n' :: rest) = line :: lines rest := by
  induction line with
  | nil => rfl
  | cons c line ih =>
      rw [List.mem_cons, not_or] at unbroken
      have notNewline : c ≠ '\n' := Ne.symm unbroken.1
      cases line with
      | nil =>
          have notReturn : c ≠ '\r' := by simpa using ended
          rw [List.singleton_append, lines_cons notNewline fun same => absurd same notReturn]
          rfl
      | cons next line =>
          have apart : next ≠ '\n' := by
            intro same
            simp [same] at unbroken
          rw [List.cons_append, lines_cons notNewline fun _ => by simpa using apart,
            ih unbroken.2 (by simpa using ended)]

theorem solid_of_any (solid : word.any isWhitespace = false) : ∀ c ∈ word, isWhitespace c = false := by
  simpa using solid

/-- Everything about the words of a text follows from cutting it at a blank. -/
theorem splitWhitespace_append (blank : isWhitespace mark = true) :
    splitWhitespace (before ++ mark :: after) = splitWhitespace before ++ splitWhitespace after := by
  rw [splitWhitespace, List.splitOnP_append_cons before after blank, List.filter_append]
  rfl

theorem splitWhitespace_word (nonempty : word ≠ []) (solid : ∀ c ∈ word, isWhitespace c = false) :
    splitWhitespace word = [word] := by
  rw [splitWhitespace, List.splitOnP_eq_singleton solid]
  simp [nonempty]

end GlancesRs.Data
