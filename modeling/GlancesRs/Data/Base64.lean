import Mathlib.Data.List.Basic

namespace GlancesRs.Data.Base64

/-! The standard base64 encoding with padding. Decoding is strict: the only text
that decodes to some bytes is their encoding. -/

/-- The symbol of six bits. -/
def symbol (bits : ℕ) : Char :=
  if bits < 26 then .ofNat (65 + bits)
  else if bits < 52 then .ofNat (71 + bits)
  else if bits < 62 then .ofNat (bits - 4)
  else if bits = 62 then '+'
  else '/'

def bitsOf (c : Char) : Option ℕ :=
  if 65 ≤ c.toNat ∧ c.toNat ≤ 90 then some (c.toNat - 65)
  else if 97 ≤ c.toNat ∧ c.toNat ≤ 122 then some (c.toNat - 71)
  else if 48 ≤ c.toNat ∧ c.toNat ≤ 57 then some (c.toNat + 4)
  else if c = '+' then some 62
  else if c = '/' then some 63
  else none

def encode : List UInt8 → List Char
  | a :: b :: c :: rest =>
      symbol (a.toNat / 4) :: symbol (a.toNat % 4 * 16 + b.toNat / 16) ::
        symbol (b.toNat % 16 * 4 + c.toNat / 64) :: symbol (c.toNat % 64) :: encode rest
  | [a, b] =>
      [symbol (a.toNat / 4), symbol (a.toNat % 4 * 16 + b.toNat / 16), symbol (b.toNat % 16 * 4), '=']
  | [a] => [symbol (a.toNat / 4), symbol (a.toNat % 4 * 16), '=', '=']
  | [] => []

/-- Reads groups of four symbols up to a padded one, as loosely as it can. -/
def decodeGroups : List Char → Option (List UInt8)
  | w :: x :: y :: z :: rest => do
      let w ← bitsOf w
      let x ← bitsOf x
      let first := .ofNat (w * 4 + x / 16)
      if y = '=' then return [first]
      let y ← bitsOf y
      let second := .ofNat (x % 16 * 16 + y / 4)
      if z = '=' then return [first, second]
      let z ← bitsOf z
      return first :: second :: .ofNat (y % 4 * 64 + z) :: (← decodeGroups rest)
  | _ => some []

def decode (text : List Char) : Option (List UInt8) :=
  (decodeGroups text).filter fun bytes => encode bytes = text

variable {bits : ℕ} {bytes : List UInt8}

theorem bitsOf_symbol (sextet : bits < 64) : bitsOf (symbol bits) = some bits := by
  revert bits
  decide

theorem symbol_ne_pad (sextet : bits < 64) : symbol bits ≠ '=' := by
  revert bits
  decide

/-- Every symbol is a printable ASCII character other than a blank. -/
theorem symbol_visible (sextet : bits < 64) : 33 ≤ (symbol bits).toNat ∧ (symbol bits).toNat < 127 := by
  revert bits
  decide

theorem encode_visible : ∀ c ∈ encode bytes, 33 ≤ c.toNat ∧ c.toNat < 127 := by
  have pad : 33 ≤ '='.toNat ∧ '='.toNat < 127 := by decide
  fun_induction encode bytes with
  | case1 a b c rest ih =>
      have first := a.toNat_lt
      have second := b.toNat_lt
      simp only [List.forall_mem_cons]
      have third := c.toNat_lt
      refine ⟨symbol_visible ?_, symbol_visible ?_, symbol_visible ?_, symbol_visible ?_, ih⟩ <;> omega
  | case2 a b =>
      have first := a.toNat_lt
      have second := b.toNat_lt
      simp only [List.forall_mem_cons]
      refine ⟨symbol_visible ?_, symbol_visible ?_, symbol_visible ?_, pad, List.forall_mem_nil _⟩ <;>
        omega
  | case3 a =>
      have first := a.toNat_lt
      simp only [List.forall_mem_cons]
      refine ⟨symbol_visible ?_, symbol_visible ?_, pad, pad, List.forall_mem_nil _⟩ <;> omega
  | case4 => exact List.forall_mem_nil _

theorem byte_eq {byte : UInt8} {value : ℕ} (same : value = byte.toNat) :
    UInt8.ofNat value = byte := by
  rw [same, UInt8.ofNat_toNat]

theorem decodeGroups_encode : decodeGroups (encode bytes) = some bytes := by
  fun_induction encode bytes with
  | case1 a b c rest ih =>
      have first := a.toNat_lt
      have second := b.toNat_lt
      have third := c.toNat_lt
      have split := @bitsOf_symbol (a.toNat % 4 * 16 + b.toNat / 16) (by omega)
      have middle := @bitsOf_symbol (b.toNat % 16 * 4 + c.toNat / 64) (by omega)
      have unpadded := @symbol_ne_pad (b.toNat % 16 * 4 + c.toNat / 64) (by omega)
      have full := @symbol_ne_pad (c.toNat % 64) (by omega)
      rw [decodeGroups, bitsOf_symbol (by omega), split]
      simp only [Option.bind_eq_bind, Option.bind_some, if_neg unpadded, middle, if_neg full,
        @bitsOf_symbol (c.toNat % 64) (by omega), ih, Option.pure_def]
      rw [@byte_eq a _ (by omega), @byte_eq b _ (by omega), @byte_eq c _ (by omega)]
  | case2 a b =>
      have first := a.toNat_lt
      have second := b.toNat_lt
      have split := @bitsOf_symbol (a.toNat % 4 * 16 + b.toNat / 16) (by omega)
      have unpadded := @symbol_ne_pad (b.toNat % 16 * 4) (by omega)
      rw [decodeGroups, bitsOf_symbol (by omega), split]
      simp only [Option.bind_eq_bind, Option.bind_some, if_neg unpadded,
        @bitsOf_symbol (b.toNat % 16 * 4) (by omega), if_true, Option.pure_def]
      rw [@byte_eq a _ (by omega), @byte_eq b _ (by omega)]
  | case3 a =>
      have first := a.toNat_lt
      rw [decodeGroups, bitsOf_symbol (by omega), @bitsOf_symbol (a.toNat % 4 * 16) (by omega)]
      simp only [Option.bind_eq_bind, Option.bind_some, if_true, Option.pure_def]
      rw [@byte_eq a _ (by omega)]
  | case4 => rfl

theorem decode_encode (bytes : List UInt8) : decode (encode bytes) = some bytes := by
  rw [decode, decodeGroups_encode, Option.filter_some, if_pos (by simp)]

end GlancesRs.Data.Base64
