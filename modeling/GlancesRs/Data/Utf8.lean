import Mathlib.Data.List.Basic

namespace GlancesRs.Data

/-! UTF-8 as lists of bytes, and the lossy reading of bytes that need not be. -/

def utf8Bytes (text : List Char) : List UInt8 := text.flatMap String.utf8EncodeChar

/-- The ranges of the bytes that continue a sequence begun by `first`. -/
def continuationRanges (first : UInt8) : List (UInt8 × UInt8) :=
  if 0xC2 ≤ first ∧ first ≤ 0xDF then [(0x80, 0xBF)]
  else if first = 0xE0 then [(0xA0, 0xBF), (0x80, 0xBF)]
  else if first = 0xED then [(0x80, 0x9F), (0x80, 0xBF)]
  else if 0xE1 ≤ first ∧ first ≤ 0xEF then [(0x80, 0xBF), (0x80, 0xBF)]
  else if first = 0xF0 then [(0x90, 0xBF), (0x80, 0xBF), (0x80, 0xBF)]
  else if 0xF1 ≤ first ∧ first ≤ 0xF3 then [(0x80, 0xBF), (0x80, 0xBF), (0x80, 0xBF)]
  else if first = 0xF4 then [(0x80, 0x8F), (0x80, 0xBF), (0x80, 0xBF)]
  else []

def matchedLength : List (UInt8 × UInt8) → List UInt8 → ℕ
  | (low, high) :: ranges, byte :: rest =>
      if low ≤ byte ∧ byte ≤ high then matchedLength ranges rest + 1 else 0
  | _, _ => 0

/-- `fuel` bounds the characters read; each takes a byte at least. -/
def decodeLossyFrom : ℕ → List UInt8 → List Char
  | fuel + 1, first :: rest =>
      match (first :: rest).toByteArray.utf8DecodeChar? 0 with
      | some c => c :: decodeLossyFrom fuel ((first :: rest).drop c.utf8Size)
      | none =>
          -- one replacement for the longest prefix of a sequence
          '\uFFFD' :: decodeLossyFrom fuel
            (rest.drop (matchedLength (continuationRanges first) rest))
  | _, _ => []

/-- `String::from_utf8_lossy`. -/
def decodeLossy (bytes : List UInt8) : List Char := decodeLossyFrom bytes.length bytes

variable {text : List Char} {fuel : ℕ}

@[simp] theorem utf8Bytes_nil : utf8Bytes [] = [] := rfl

theorem utf8Bytes_cons (c : Char) :
    utf8Bytes (c :: text) = String.utf8EncodeChar c ++ utf8Bytes text := rfl

theorem utf8Bytes_append (left right : List Char) :
    utf8Bytes (left ++ right) = utf8Bytes left ++ utf8Bytes right :=
  List.flatMap_append

theorem toUTF8_ofList (text : List Char) :
    (String.ofList text).toUTF8 = (utf8Bytes text).toByteArray :=
  rfl

theorem utf8DecodeChar?_utf8Bytes (c : Char) :
    (utf8Bytes (c :: text)).toByteArray.utf8DecodeChar? 0 = some c := by
  rw [utf8Bytes_cons, List.toByteArray_append]
  exact ByteArray.utf8DecodeChar?_utf8EncodeChar_append

theorem decodeLossyFrom_utf8Bytes (enough : (utf8Bytes text).length ≤ fuel) :
    decodeLossyFrom fuel (utf8Bytes text) = text := by
  induction text generalizing fuel with
  | nil => cases fuel <;> rfl
  | cons c rest ih =>
      have decoded := @utf8DecodeChar?_utf8Bytes rest c
      have size : (String.utf8EncodeChar c).length = c.utf8Size := String.length_utf8EncodeChar c
      have positive := c.utf8Size_pos
      have split := @utf8Bytes_cons rest c
      rw [split, List.length_append, size] at enough
      obtain ⟨fuel, rfl⟩ : ∃ less, fuel = less + 1 := ⟨fuel - 1, by omega⟩
      cases bytes : utf8Bytes (c :: rest) with
      | nil =>
          rw [bytes] at decoded
          cases decoded
      | cons first more =>
          rw [bytes] at decoded
          rw [decodeLossyFrom, decoded]
          have remaining : (first :: more).drop c.utf8Size = utf8Bytes rest := by
            rw [← bytes, split, ← size, List.drop_left]
          simp only [remaining]
          rw [ih (by omega)]

/-- Nothing is lost of a text. -/
theorem decodeLossy_utf8Bytes (text : List Char) : decodeLossy (utf8Bytes text) = text :=
  decodeLossyFrom_utf8Bytes (Nat.le_refl _)

theorem fromUTF8?_eq_some {bytes : ByteArray} {text : String} :
    String.fromUTF8? bytes = some text ↔ bytes = text.toUTF8 := by
  rw [String.fromUTF8?]
  constructor
  · split
    · rename_i valid
      intro same
      cases same
      rfl
    · intro impossible
      cases impossible
  · intro same
    subst same
    have valid : text.toUTF8.IsValidUTF8 := text.isValidUTF8
    simp only [valid, dif_pos]
    rfl

/-- `str::from_utf8`. -/
def fromUtf8 (bytes : List UInt8) : Option (List Char) :=
  (String.fromUTF8? bytes.toByteArray).map String.toList

theorem fromUtf8_utf8Bytes (text : List Char) : fromUtf8 (utf8Bytes text) = some text := by
  have decoded : String.fromUTF8? (utf8Bytes text).toByteArray = some (.ofList text) :=
    fromUTF8?_eq_some.mpr (toUTF8_ofList text).symm
  rw [fromUtf8, decoded, Option.map_some, String.toList_ofList]

section Ascii

variable {c : Char} {byte : UInt8}

theorem utf8EncodeChar_ascii (ascii : c.toNat < 128) :
    String.utf8EncodeChar c = [UInt8.ofNat c.toNat] := by
  have small : c.val.toNat ≤ 0x7f := by
    have same : c.toNat = c.val.toNat := rfl
    omega
  exact if_pos small

/-- Only the character itself is written with its byte. -/
theorem ascii_of_mem_utf8EncodeChar (inside : byte ∈ String.utf8EncodeChar c)
    (ascii : byte.toNat < 128) : c.toNat = byte.toNat := by
  by_cases small : c.toNat < 128
  · rw [utf8EncodeChar_ascii small, List.mem_singleton] at inside
    rw [inside, UInt8.toNat_ofNat']
    omega
  · exfalso
    have same : c.toNat = c.val.toNat := rfl
    have high : ∀ n, 128 ≤ n % 256 → byte ≠ UInt8.ofNat n := by
      intro n large equal
      rw [equal, UInt8.toNat_ofNat'] at ascii
      omega
    unfold String.utf8EncodeChar at inside
    simp only at inside
    -- every byte of a longer sequence has its high bit set
    split at inside
    · omega
    split at inside
    · simp only [List.mem_cons, List.not_mem_nil, or_false] at inside
      rcases inside with first | second
      · exact high _ (by omega) first
      · exact high _ (by omega) second
    split at inside
    · simp only [List.mem_cons, List.not_mem_nil, or_false] at inside
      rcases inside with first | second | third
      · exact high _ (by omega) first
      · exact high _ (by omega) second
      · exact high _ (by omega) third
    · simp only [List.mem_cons, List.not_mem_nil, or_false] at inside
      rcases inside with first | second | third | fourth
      · exact high _ (by omega) first
      · exact high _ (by omega) second
      · exact high _ (by omega) third
      · exact high _ (by omega) fourth

end Ascii

end GlancesRs.Data
