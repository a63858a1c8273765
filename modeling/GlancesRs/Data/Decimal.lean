import Mathlib.Data.Int.Notation
import Mathlib.Data.List.Basic
import Mathlib.Tactic.IntervalCases

namespace GlancesRs.Data

/-! Decimal texts of a fixed width, which compare as the numbers do, and the
numbers `str::parse` and `from_str_radix` read. -/

def fixedDigits : ℕ → ℕ → List Char
  | 0, _ => []
  | width + 1, n => fixedDigits width (n / 10) ++ [Nat.digitChar (n % 10)]

variable {width n m : ℕ} {left right : List Char}

theorem fixedDigits_zero : fixedDigits width 0 = List.replicate width '0' := by
  induction width with
  | zero => rfl
  | succ width ih =>
      rw [fixedDigits, Nat.zero_div, ih, List.replicate_succ']
      rfl

/-- The digits of a number, filled with zeros from the left. -/
theorem replicate_append_toDigits (fits : n < 10 ^ width) (wide : 0 < width) :
    List.replicate (width - (Nat.toDigits 10 n).length) '0' ++ Nat.toDigits 10 n =
      fixedDigits width n := by
  induction width generalizing n with
  | zero => cases wide
  | succ width ih =>
      by_cases small : n < 10
      · rw [Nat.toDigits_of_lt_base small, fixedDigits, Nat.div_eq_of_lt small, fixedDigits_zero,
          Nat.mod_eq_of_lt small]
        rfl
      · have fewer : n / 10 < 10 ^ width := by
          rw [Nat.pow_succ] at fits
          omega
        have wider : 0 < width := by
          apply Nat.pos_of_ne_zero
          intro none
          subst none
          omega
        rw [Nat.toDigits_of_base_le (by decide) (by omega), fixedDigits, ← ih fewer wider]
        simp

theorem digitChar_lt (less : n < m) (small : m < 10) : Nat.digitChar n < Nat.digitChar m := by
  interval_cases m <;> interval_cases n <;> decide

theorem fixedDigits_append_lt (less : n < m) (fits : m < 10 ^ width) :
    fixedDigits width n ++ left < fixedDigits width m ++ right := by
  induction width generalizing n m left right with
  | zero => simp at fits; omega
  | succ width ih =>
      simp only [fixedDigits, List.append_assoc]
      by_cases same : n / 10 = m / 10
      · rw [same]
        apply List.append_left_lt
        exact List.cons_lt_cons_iff.mpr (.inl (digitChar_lt (by omega) (by omega)))
      · apply ih
        · omega
        · rw [Nat.pow_succ] at fits
          omega

section Parse

/-- `char::to_digit`. -/
def toDigit (radix : ℕ) (c : Char) : Option ℕ :=
  let value :=
    if '0' ≤ c ∧ c ≤ '9' then some (c.toNat - 48)
    else if 'a' ≤ c ∧ c ≤ 'z' then some (c.toNat - 87)
    else if 'A' ≤ c ∧ c ≤ 'Z' then some (c.toNat - 55)
    else none
  value.filter (· < radix)

def digitsValue (radix : ℕ) (digits : List Char) : Option ℕ :=
  if digits = [] then none
  else digits.foldlM (fun value c => (toDigit radix c).map (value * radix + ·)) 0

/-- `from_str_radix` of an unsigned type with the values below `bound`. -/
def fromStrRadix (radix bound : ℕ) (text : List Char) : Option ℕ :=
  let digits := match text with
    | '+' :: rest => rest
    | _ => text
  (digitsValue radix digits).filter (· < bound)

/-- `parse::<u64>`. -/
def parseU64 (text : List Char) : Option UInt64 :=
  (fromStrRadix 10 (2 ^ 64) text).map UInt64.ofNat

/-- `parse::<i64>`. -/
def parseI64 (text : List Char) : Option ℤ :=
  match text with
  | '-' :: digits => ((digitsValue 10 digits).filter (· ≤ 2 ^ 63)).map fun value => -value
  | _ => (fromStrRadix 10 (2 ^ 63) text).map fun value => value

/-- `it.next().and_then(|x| x.parse().ok()).unwrap_or(0)`. -/
def nextU64 (tokens : List (List Char)) : UInt64 := (tokens.head?.bind parseU64).getD 0

end Parse

end GlancesRs.Data
