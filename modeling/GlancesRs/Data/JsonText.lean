import GlancesRs.Data.Json
import GlancesRs.Data.Utf8
import Mathlib.Data.Int.Notation
import Mathlib.Tactic.IntervalCases

namespace GlancesRs.Data

/-! `serde_json`'s compact serialization, and the grammar of JSON texts without
insignificant whitespace, which it stays in. -/

/-- `serde_json` escapes what JSON does not allow in a string, nothing else. -/
def escapeChar (c : Char) : List Char :=
  if c = '"' then ['\\', '"']
  else if c = '\\' then ['\\', '\\']
  else if c.toNat = 0x08 then ['\\', 'b']
  else if c.toNat = 0x09 then ['\\', 't']
  else if c.toNat = 0x0A then ['\\', 'n']
  else if c.toNat = 0x0C then ['\\', 'f']
  else if c.toNat = 0x0D then ['\\', 'r']
  else if c.toNat < 0x20 then
    ['\\', 'u', '0', '0', Nat.digitChar (c.toNat / 16), Nat.digitChar (c.toNat % 16)]
  else [c]

def quoted (text : String) : List Char := '"' :: text.toList.flatMap escapeChar ++ ['"']

section Serialize

variable [NumberText]

mutual

def serialize : Json → List Char
  | .null => ['n', 'u', 'l', 'l']
  | .bool true => ['t', 'r', 'u', 'e']
  | .bool false => ['f', 'a', 'l', 's', 'e']
  | .number value => (NumberText.text value).toList
  | .string value => quoted value
  | .array items => '[' :: serializeItems items ++ [']']
  | .object members => '{' :: serializeMembers members ++ ['}']

def serializeItems : List Json → List Char
  | [] => []
  | [item] => serialize item
  | item :: rest => serialize item ++ ',' :: serializeItems rest

def serializeMembers : List (String × Json) → List Char
  | [] => []
  | [member] => serializeMember member
  | member :: rest => serializeMember member ++ ',' :: serializeMembers rest

def serializeMember : String × Json → List Char
  | (name, value) => quoted name ++ ':' :: serialize value

end

/-- `serde_json::to_vec`. -/
def toVec (value : Json) : List UInt8 := utf8Bytes (serialize value)

end Serialize

section Grammar

def JsonDigits (text : List Char) : Prop := text ≠ [] ∧ ∀ c ∈ text, c.isDigit = true

/-- No leading zero but the digit zero itself. -/
def JsonInteger (text : List Char) : Prop := JsonDigits text ∧ (text.head? = some '0' → text = ['0'])

def JsonFraction (text : List Char) : Prop :=
  text = [] ∨ ∃ digits, text = '.' :: digits ∧ JsonDigits digits

def JsonExponent (text : List Char) : Prop :=
  text = [] ∨ ∃ mark sign digits, text = mark :: sign ++ digits ∧ (mark = 'e' ∨ mark = 'E') ∧
    (sign = [] ∨ sign = ['+'] ∨ sign = ['-']) ∧ JsonDigits digits

def JsonNumber (text : List Char) : Prop :=
  ∃ sign integer fraction exponent, text = sign ++ integer ++ fraction ++ exponent ∧
    (sign = [] ∨ sign = ['-']) ∧ JsonInteger integer ∧ JsonFraction fraction ∧ JsonExponent exponent

def isHexDigit (c : Char) : Bool :=
  c.isDigit || ('a' ≤ c && c ≤ 'f') || ('A' ≤ c && c ≤ 'F')

/-- What may stand between the quotes of a string. -/
inductive JsonChars : List Char → Prop
  | nil : JsonChars []
  | plain (c : Char) {rest : List Char} (printable : 0x20 ≤ c.toNat) (quote : c ≠ '"')
      (backslash : c ≠ '\\') (tail : JsonChars rest) : JsonChars (c :: rest)
  | escape (c : Char) {rest : List Char} (known : c ∈ ['"', '\\', '/', 'b', 'f', 'n', 'r', 't'])
      (tail : JsonChars rest) : JsonChars ('\\' :: c :: rest)
  | unicode (digits : List Char) {rest : List Char} (four : digits.length = 4)
      (hex : ∀ c ∈ digits, isHexDigit c = true) (tail : JsonChars rest) :
      JsonChars ('\\' :: 'u' :: digits ++ rest)

inductive JsonString : List Char → Prop
  | quoted {chars : List Char} (inner : JsonChars chars) : JsonString ('"' :: chars ++ ['"'])

mutual

inductive JsonText : List Char → Prop
  | null : JsonText ['n', 'u', 'l', 'l']
  | true : JsonText ['t', 'r', 'u', 'e']
  | false : JsonText ['f', 'a', 'l', 's', 'e']
  | number {text : List Char} (number : JsonNumber text) : JsonText text
  | string {text : List Char} (string : JsonString text) : JsonText text
  | emptyArray : JsonText ['[', ']']
  | array {items : List Char} (listed : JsonItems items) : JsonText ('[' :: items ++ [']'])
  | emptyObject : JsonText ['{', '}']
  | object {members : List Char} (listed : JsonMembers members) :
      JsonText ('{' :: members ++ ['}'])

inductive JsonItems : List Char → Prop
  | single {item : List Char} (value : JsonText item) : JsonItems item
  | more {item rest : List Char} (value : JsonText item) (tail : JsonItems rest) :
      JsonItems (item ++ ',' :: rest)

inductive JsonMembers : List Char → Prop
  | single {member : List Char} (pair : JsonMember member) : JsonMembers member
  | more {member rest : List Char} (pair : JsonMember member) (tail : JsonMembers rest) :
      JsonMembers (member ++ ',' :: rest)

inductive JsonMember : List Char → Prop
  | pair {name value : List Char} (key : JsonString name) (held : JsonText value) :
      JsonMember (name ++ ':' :: value)

end

end Grammar

section Strings

variable {c : Char} {rest : List Char}

theorem isHexDigit_digitChar {n : ℕ} (small : n < 16) : isHexDigit (Nat.digitChar n) = true := by
  interval_cases n <;> decide

theorem JsonChars.escaped (tail : JsonChars rest) : JsonChars (escapeChar c ++ rest) := by
  unfold escapeChar
  split
  · exact .escape _ (by simp) tail
  split
  · exact .escape _ (by simp) tail
  split
  · exact .escape _ (by simp) tail
  split
  · exact .escape _ (by simp) tail
  split
  · exact .escape _ (by simp) tail
  split
  · exact .escape _ (by simp) tail
  split
  · exact .escape _ (by simp) tail
  split
  · rename_i control
    refine .unicode ['0', '0', _, _] rfl (fun digit listed => ?_) tail
    simp only [List.mem_cons, List.not_mem_nil, or_false] at listed
    rcases listed with rfl | rfl | rfl | rfl
    · rfl
    · rfl
    · exact isHexDigit_digitChar (by omega)
    · exact isHexDigit_digitChar (by omega)
  · rename_i quote backslash _ _ _ _ _ printable
    exact .plain c (by omega) quote backslash tail

theorem jsonString_quoted (text : String) : JsonString (quoted text) := by
  refine .quoted ?_
  induction text.toList with
  | nil => exact .nil
  | cons c rest ih => exact ih.escaped

/-- Without characters to escape a string is printed as it is. -/
theorem quoted_of_plain {text : String}
    (plain : ∀ c ∈ text.toList, escapeChar c = [c]) : quoted text = '"' :: text.toList ++ ['"'] := by
  have same : text.toList.flatMap escapeChar = text.toList := by
    rw [List.flatMap_congr plain, List.flatMap_singleton']
  rw [quoted, same]

end Strings

section Numbers

variable {n : ℕ}

theorem jsonDigits_toDigits : JsonDigits (Nat.toDigits 10 n) :=
  ⟨Nat.toDigits_ne_nil, fun _ listed => Nat.isDigit_of_mem_toDigits (by decide) (by decide) listed⟩

theorem head?_toDigits (positive : 0 < n) : (Nat.toDigits 10 n).head? ≠ some '0' := by
  induction n using Nat.strong_induction_on with
  | _ n ih =>
      by_cases small : n < 10
      · rw [Nat.toDigits_of_lt_base small]
        interval_cases n <;> decide
      · rw [Nat.toDigits_of_base_le (by decide) (by omega),
          List.head?_append_of_ne_nil _ Nat.toDigits_ne_nil]
        exact ih (n / 10) (by omega) (by omega)

theorem jsonInteger_toDigits : JsonInteger (Nat.toDigits 10 n) := by
  refine ⟨jsonDigits_toDigits, fun zero => ?_⟩
  rcases Nat.eq_zero_or_pos n with rfl | positive
  · rfl
  · exact absurd zero (head?_toDigits positive)

theorem JsonInteger.number {text : List Char} (integer : JsonInteger text) : JsonNumber text :=
  ⟨[], text, [], [], by simp, .inl rfl, integer, .inl rfl, .inl rfl⟩

theorem jsonNumber_toString_nat (n : ℕ) : JsonNumber (toString n).toList := by
  rw [Nat.toString_eq_repr, Nat.toList_repr]
  exact jsonInteger_toDigits.number

theorem jsonNumber_toString_int (n : ℤ) : JsonNumber (toString n).toList := by
  cases n with
  | ofNat n => exact jsonNumber_toString_nat n
  | negSucc n =>
      have written : (toString (Int.negSucc n)).toList = '-' :: Nat.toDigits 10 (n + 1) := by
        rw [← Nat.toList_repr]
        show ("-" ++ (n + 1).repr).toList = _
        rw [String.toList_append]
        rfl
      rw [written]
      exact ⟨['-'], Nat.toDigits 10 (n + 1), [], [], by simp, .inr rfl, jsonInteger_toDigits, .inl rfl,
        .inl rfl⟩

def Number.isFinite : Number → Bool
  | .posInt _ | .negInt _ => true
  | .float value => value.isFinite

/-- A number prints as one, and a float that is none of JSON's as `null`. -/
structure NumberText.Documented [NumberText] : Prop where
  finite : ∀ number : Number, number.isFinite = true → JsonNumber (NumberText.text number).toList
  special : ∀ number : Number, number.isFinite = false → NumberText.text number = "null"

/-- Floats other than zero print here as zero. -/
abbrev NumberText.zeroFloats : NumberText where
  text
    | .posInt value => toString value.toNat
    | .negInt value => toString value.toInt
    | .float value => if value.isFinite then "0.0" else "null"

theorem NumberText.zeroFloats_documented : @NumberText.Documented .zeroFloats := by
  have zero : JsonNumber ("0.0" : String).toList :=
    ⟨[], ['0'], ['.', '0'], [], by decide +kernel, .inl rfl, by simp [JsonInteger, JsonDigits],
      .inr ⟨['0'], rfl, by simp [JsonDigits]⟩, .inl rfl⟩
  refine @NumberText.Documented.mk .zeroFloats (fun number finite => ?_) fun number infinite => ?_
  · cases number with
    | posInt value => exact jsonNumber_toString_nat _
    | negInt value => exact jsonNumber_toString_int _
    | float value =>
        have printed : (if value.isFinite then "0.0" else "null") = "0.0" := if_pos finite
        show JsonNumber (if value.isFinite then "0.0" else "null").toList
        rwa [printed]
  · cases number with
    | posInt value => cases infinite
    | negInt value => cases infinite
    | float value =>
        exact if_neg (Bool.not_eq_true _ ▸ infinite)

end Numbers

section Serialized

variable [NumberText]

mutual

theorem jsonText_serialize (documented : NumberText.Documented) :
    ∀ value : Json, JsonText (serialize value)
  | .null => .null
  | .bool true => .true
  | .bool false => .false
  | .number value => by
      cases finite : value.isFinite with
      | true => exact .number (documented.finite value finite)
      | false =>
          rw [serialize, documented.special value finite]
          exact .null
  | .string value => .string (jsonString_quoted value)
  | .array items => by
      cases items with
      | nil => exact .emptyArray
      | cons item rest => exact .array (jsonItems_serialize documented (item :: rest) (List.cons_ne_nil _ _))
  | .object members => by
      cases members with
      | nil => exact .emptyObject
      | cons member rest =>
          exact .object (jsonMembers_serialize documented (member :: rest) (List.cons_ne_nil _ _))

theorem jsonItems_serialize (documented : NumberText.Documented) :
    ∀ items : List Json, items ≠ [] → JsonItems (serializeItems items)
  | [], empty => absurd rfl empty
  | [item], _ => .single (jsonText_serialize documented item)
  | item :: next :: rest, _ =>
      .more (jsonText_serialize documented item)
        (jsonItems_serialize documented (next :: rest) (List.cons_ne_nil _ _))

theorem jsonMembers_serialize (documented : NumberText.Documented) :
    ∀ members : List (String × Json), members ≠ [] → JsonMembers (serializeMembers members)
  | [], empty => absurd rfl empty
  | [member], _ => .single (jsonMember_serialize documented member)
  | member :: next :: rest, _ =>
      .more (jsonMember_serialize documented member)
        (jsonMembers_serialize documented (next :: rest) (List.cons_ne_nil _ _))

theorem jsonMember_serialize (documented : NumberText.Documented) :
    ∀ member : String × Json, JsonMember (serializeMember member)
  | (name, value) => .pair (jsonString_quoted name) (jsonText_serialize documented value)

end

end Serialized

end GlancesRs.Data
