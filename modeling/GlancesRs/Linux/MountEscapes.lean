import GlancesRs.Data.Decimal
import GlancesRs.Data.Utf8

namespace GlancesRs

open Data

/-! The octal escapes of `/proc/self/mounts`: what the kernel writes and what
`unescape_mount` reads. -/

def octalByte (digits : List UInt8) : Option UInt8 := do
  let oct ← fromUtf8 digits
  (fromStrRadix 8 256 oct).map UInt8.ofNat

def backslash : UInt8 := 0x5C

/-- The bytes `unescape_mount` pushes. -/
def unescapeBytes : List UInt8 → List UInt8
  | byte :: a :: b :: c :: rest =>
      match if byte = backslash then octalByte [a, b, c] else none with
      | some value => value :: unescapeBytes rest
      | none => byte :: unescapeBytes (a :: b :: c :: rest)
  | bytes => bytes

def unescapeMount (text : List Char) : List Char := decodeLossy (unescapeBytes (utf8Bytes text))

/-- A backslash and the three octal digits of an ASCII character. -/
def octalEscape (c : Char) : List Char :=
  ['\\', Nat.digitChar (c.toNat / 64), Nat.digitChar (c.toNat / 8 % 8), Nat.digitChar (c.toNat % 8)]

def escapeWith (escaped : Char → Bool) (text : List Char) : List Char :=
  text.flatMap fun c => if escaped c then octalEscape c else [c]

section Unescape

variable {bytes rest : List UInt8} {byte : UInt8} {c : Char} {text : List Char}

theorem unescapeBytes_cons (plain : byte ≠ backslash) :
    unescapeBytes (byte :: rest) = byte :: unescapeBytes rest := by
  match rest with
  | [] | [_] | [_, _] => rfl
  | _ :: _ :: _ :: _ => rw [unescapeBytes, if_neg plain]

theorem unescapeBytes_append (plain : ∀ byte ∈ bytes, byte ≠ backslash) :
    unescapeBytes (bytes ++ rest) = bytes ++ unescapeBytes rest := by
  induction bytes with
  | nil => rfl
  | cons byte bytes ih =>
      have head := plain byte List.mem_cons_self
      have tail := ih fun other inside => plain other (List.mem_cons_of_mem _ inside)
      rw [List.cons_append, unescapeBytes_cons head, tail, List.cons_append]

theorem toDigit_digitChar {digit : ℕ} (inside : digit < 8) :
    toDigit 8 (Nat.digitChar digit) = some digit := by
  interval_cases digit <;> decide

theorem digitChar_ascii {digit : ℕ} (inside : digit < 8) : (Nat.digitChar digit).toNat < 128 := by
  interval_cases digit <;> decide

theorem digitChar_ne_plus {digit : ℕ} (inside : digit < 8) : Nat.digitChar digit ≠ '+' := by
  interval_cases digit <;> decide

/-- The digits of an escape are read as its character. -/
theorem fromStrRadix_octalEscape (ascii : c.toNat < 128) :
    fromStrRadix 8 256 (octalEscape c).tail = some c.toNat := by
  have first := @toDigit_digitChar (c.toNat / 64) (by omega)
  have second := @toDigit_digitChar (c.toNat / 8 % 8) (by omega)
  have third := @toDigit_digitChar (c.toNat % 8) (by omega)
  have whole : (c.toNat / 64 * 8 + c.toNat / 8 % 8) * 8 + c.toNat % 8 = c.toNat := by omega
  have fits : c.toNat < 256 := by omega
  rw [octalEscape, List.tail_cons, fromStrRadix]
  · simp [digitsValue, first, second, third, whole, fits]
  · intro rest same
    exact digitChar_ne_plus (by omega) (List.cons.inj same).1

theorem utf8Bytes_octalEscape (ascii : c.toNat < 128) : ∃ a b d,
    utf8Bytes (octalEscape c) = [backslash, a, b, d] ∧ utf8Bytes (octalEscape c).tail = [a, b, d] := by
  have byte : ∀ digit, digit < 8 → String.utf8EncodeChar (Nat.digitChar digit) =
      [UInt8.ofNat (Nat.digitChar digit).toNat] :=
    fun digit inside => utf8EncodeChar_ascii (digitChar_ascii inside)
  refine ⟨.ofNat (Nat.digitChar (c.toNat / 64)).toNat, .ofNat (Nat.digitChar (c.toNat / 8 % 8)).toNat,
    .ofNat (Nat.digitChar (c.toNat % 8)).toNat, ?_, ?_⟩
  · rw [octalEscape, utf8Bytes_cons, utf8Bytes_cons, utf8Bytes_cons, utf8Bytes_cons,
      byte _ (by omega), byte _ (by omega), byte _ (by omega)]
    rfl
  · rw [octalEscape, List.tail_cons, utf8Bytes_cons, utf8Bytes_cons, utf8Bytes_cons,
      byte _ (by omega), byte _ (by omega), byte _ (by omega)]
    rfl

theorem unescapeBytes_octalEscape (ascii : c.toNat < 128) :
    unescapeBytes (utf8Bytes (octalEscape c) ++ rest) = UInt8.ofNat c.toNat :: unescapeBytes rest := by
  obtain ⟨a, b, d, written, digits⟩ := utf8Bytes_octalEscape ascii
  have read : octalByte [a, b, d] = some (UInt8.ofNat c.toNat) := by
    rw [octalByte, ← digits, fromUtf8_utf8Bytes, Option.bind_eq_bind, Option.bind_some,
      fromStrRadix_octalEscape ascii]
    rfl
  rw [written]
  simp only [List.cons_append, List.nil_append, unescapeBytes, if_true, read]

/-- Escapes are undone where backslashes are escaped. -/
theorem unescapeMount_escapeWith {escaped : Char → Bool}
    (ascii : ∀ c, escaped c = true → c.toNat < 128) (backslashes : escaped '\\' = true)
    (text : List Char) : unescapeMount (escapeWith escaped text) = text := by
  have bytes : unescapeBytes (utf8Bytes (escapeWith escaped text)) = utf8Bytes text := by
    induction text with
    | nil => rfl
    | cons c text ih =>
        rw [escapeWith, List.flatMap_cons, ← escapeWith, utf8Bytes_append, utf8Bytes_cons]
        by_cases escapes : escaped c = true
        · have small := ascii c escapes
          rw [if_pos escapes, unescapeBytes_octalEscape small, ih, utf8EncodeChar_ascii small]
          rfl
        · have plain : ∀ byte ∈ utf8Bytes [c], byte ≠ backslash := by
            intro byte inside same
            rw [utf8Bytes_cons, utf8Bytes_nil, List.append_nil, same] at inside
            have code : c.toNat = backslash.toNat := ascii_of_mem_utf8EncodeChar inside (by decide)
            have slash : c = '\\' := Char.toNat_inj.mp code
            exact escapes (slash ▸ backslashes)
          rw [if_neg escapes, unescapeBytes_append plain, ih, utf8Bytes_cons, utf8Bytes_nil,
            List.append_nil]
  rw [unescapeMount, bytes, decodeLossy_utf8Bytes]

end Unescape

end GlancesRs
