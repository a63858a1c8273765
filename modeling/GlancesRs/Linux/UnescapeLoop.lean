import GlancesRs.Data.Loops
import GlancesRs.Linux.MountEscapes

namespace GlancesRs

open Data

/-! The loop of `unescape_mount` over an index into the bytes: it ends without an
access out of bounds, and what it pushes is `unescapeBytes`. -/

structure UnescapeState where
  i : ℕ := 0
  out : List UInt8 := []

/-- `&b[start..stop]`; `none` where the slice is out of bounds. -/
def slice (b : List UInt8) (start stop : ℕ) : Option (List UInt8) :=
  if start ≤ stop ∧ stop ≤ b.length then some ((b.drop start).take (stop - start)) else none

/-- The guard of a pass: the byte an escape at `i` stands for, if it is one. -/
def octalAt (b : List UInt8) (i : ℕ) (byte : UInt8) : Option (Option UInt8) :=
  -- a slice has at most `isize::MAX` bytes, so `i + 4` does not overflow
  if byte = backslash ∧ i + 4 ≤ b.length then (slice b (i + 1) (i + 4)).map octalByte else some none

/-- One pass of the loop; `none` where it accesses out of bounds. -/
def unescapePass (b : List UInt8) (state : UnescapeState) : Option UnescapeState := do
  let byte ← b[state.i]?
  match ← octalAt b state.i byte with
  | some v => some { i := state.i + 4, out := state.out ++ [v] }
  | none => some { i := state.i + 1, out := state.out ++ [byte] }

def unescapeLoop (passes : ℕ) (b : List UInt8) : Option (List UInt8) :=
  (whileLoop (fun state => state.i < b.length) (unescapePass b) passes {}).map UnescapeState.out

/-- `unescape_mount` in at most `passes` passes of its loop. -/
def unescapeMountLoop (passes : ℕ) (s : List Char) : Option (List Char) :=
  (unescapeLoop passes (utf8Bytes s)).map decodeLossy

/-- The byte an escape at the head of `byte :: tail` stands for. -/
def escapedByte (byte : UInt8) (tail : List UInt8) : Option UInt8 :=
  if byte = backslash ∧ 3 ≤ tail.length then octalByte (tail.take 3) else none

/-- What is pushed, followed by what the rest decodes to, is what the whole decodes to. -/
structure UnescapeInvariant (b : List UInt8) (state : UnescapeState) : Prop where
  inside : state.i ≤ b.length
  pushed : state.out.length ≤ state.i
  decoded : state.out ++ unescapeBytes (b.drop state.i) = unescapeBytes b

section UnescapeLoop

variable {b tail : List UInt8} {byte v : UInt8} {state : UnescapeState} {i passes : ℕ}

theorem escapedByte_length (escape : escapedByte byte tail = some v) : 3 ≤ tail.length := by
  by_contra short
  rw [escapedByte, if_neg fun both => short both.2] at escape
  contradiction

theorem unescapeBytes_escape (escape : escapedByte byte tail = some v) :
    unescapeBytes (byte :: tail) = v :: unescapeBytes (tail.drop 3) := by
  match tail, escapedByte_length escape with
  | x :: y :: z :: rest, _ =>
      have read : (if byte = backslash then octalByte [x, y, z] else none) = some v := by
        simpa [escapedByte] using escape
      rw [unescapeBytes, read]
      rfl

theorem unescapeBytes_verbatim (verbatim : escapedByte byte tail = none) :
    unescapeBytes (byte :: tail) = byte :: unescapeBytes tail := by
  match tail with
  | [] | [_] | [_, _] => rfl
  | x :: y :: z :: rest =>
      have unread : (if byte = backslash then octalByte [x, y, z] else none) = none := by
        simpa [escapedByte] using verbatim
      rw [unescapeBytes, unread]

/-- The bounds check of the guard keeps the slice behind it inside. -/
theorem octalAt_eq (current : b.drop i = byte :: tail) :
    octalAt b i byte = some (escapedByte byte tail) := by
  have size : b.length - i = tail.length + 1 := by
    rw [← List.length_drop, current, List.length_cons]
  have rest : b.drop (i + 1) = tail := by
    rw [← List.drop_drop, current, List.drop_one, List.tail_cons]
  have same : i + 4 ≤ b.length ↔ 3 ≤ tail.length := by omega
  rw [octalAt, escapedByte]
  by_cases both : byte = backslash ∧ 3 ≤ tail.length
  · have width : i + 4 - (i + 1) = 3 := by omega
    rw [if_pos both, if_pos ⟨both.1, same.mpr both.2⟩, slice,
      if_pos ⟨by omega, same.mpr both.2⟩, rest, width, Option.map_some]
  · rw [if_neg both, if_neg fun checked => both ⟨checked.1, same.mp checked.2⟩]

theorem unescapePass_cases (current : b.drop state.i = byte :: tail) :
    (∃ v, escapedByte byte tail = some v ∧
      unescapePass b state = some { i := state.i + 4, out := state.out ++ [v] }) ∨
    (escapedByte byte tail = none ∧
      unescapePass b state = some { i := state.i + 1, out := state.out ++ [byte] }) := by
  have read : b[state.i]? = some byte := by
    rw [← List.head?_drop, current, List.head?_cons]
  rw [unescapePass, read, Option.bind_eq_bind, Option.bind_some, octalAt_eq current]
  cases escapedByte byte tail with
  | some v => exact .inl ⟨v, rfl, rfl⟩
  | none => exact .inr ⟨rfl, rfl⟩

theorem unescapeInvariant_start : UnescapeInvariant b {} where
  inside := Nat.zero_le _
  pushed := Nat.le_refl _
  decoded := rfl

theorem unescapePass_step (invariant : UnescapeInvariant b state) (goes : state.i < b.length) :
    ∃ next, unescapePass b state = some next ∧ UnescapeInvariant b next ∧
      b.length - next.i < b.length - state.i := by
  have current := List.drop_eq_getElem_cons goes
  have decoded := invariant.decoded
  have pushed := invariant.pushed
  rcases unescapePass_cases current with ⟨v, escape, passed⟩ | ⟨verbatim, passed⟩
  · -- the stride of four: the three digits are read and never decoded again
    have digits := escapedByte_length escape
    rw [List.length_drop] at digits
    rw [current, unescapeBytes_escape escape, List.drop_drop] at decoded
    refine ⟨_, passed, ⟨?_, ?_, ?_⟩, ?_⟩
    · show state.i + 4 ≤ b.length
      omega
    · show (state.out ++ [v]).length ≤ state.i + 4
      rw [List.length_append, List.length_singleton]
      omega
    · rw [← decoded, List.append_assoc, List.singleton_append]
    · show b.length - (state.i + 4) < b.length - state.i
      omega
  · rw [current, unescapeBytes_verbatim verbatim] at decoded
    refine ⟨_, passed, ⟨goes, ?_, ?_⟩, ?_⟩
    · show (state.out ++ [b[state.i]]).length ≤ state.i + 1
      rw [List.length_append, List.length_singleton]
      omega
    · rw [← decoded, List.append_assoc, List.singleton_append]
    · show b.length - (state.i + 1) < b.length - state.i
      omega

theorem unescapeLoop_total (enough : b.length ≤ passes) :
    unescapeLoop passes b = some (unescapeBytes b) ∧ (unescapeBytes b).length ≤ b.length := by
  have pass : ∀ state, UnescapeInvariant b state → decide (state.i < b.length) = true →
      ∃ next, unescapePass b state = some next ∧ UnescapeInvariant b next ∧
        b.length - next.i < b.length - state.i :=
    fun state invariant goes => unescapePass_step invariant (of_decide_eq_true goes)
  obtain ⟨final, ended, invariant, stopped⟩ :=
    whileLoop_total pass unescapeInvariant_start enough
  have outside : b.length ≤ final.i := Nat.le_of_not_lt (of_decide_eq_false stopped)
  have whole : final.out = unescapeBytes b := by
    rw [← invariant.decoded, List.drop_eq_nil_of_le outside, unescapeBytes, List.append_nil]
    simp
  have inside := invariant.inside
  have pushed := invariant.pushed
  rw [unescapeLoop, ended, Option.map_some, whole]
  refine ⟨rfl, ?_⟩
  rw [← whole]
  omega

/-- The loop computes `unescapeMount`. -/
theorem unescapeMountLoop_eq {s : List Char} (enough : (utf8Bytes s).length ≤ passes) :
    unescapeMountLoop passes s = some (unescapeMount s) := by
  rw [unescapeMountLoop, (unescapeLoop_total enough).1, Option.map_some, unescapeMount]

/-- What the kernel escapes is read back, and every string is read in bounds, in
a pass for each of its bytes at most. -/
theorem unescapeMountLoop_leftInverse :
    (∀ escaped : Char → Bool, (∀ c, escaped c = true → c.toNat < 128) → escaped '\\' = true →
      ∀ (p : List Char) (passes : ℕ), (utf8Bytes (escapeWith escaped p)).length ≤ passes →
        unescapeMountLoop passes (escapeWith escaped p) = some p) ∧
    ∀ (s : List Char) (passes : ℕ), (utf8Bytes s).length ≤ passes →
      ∃ out, unescapeLoop passes (utf8Bytes s) = some out ∧ out.length ≤ (utf8Bytes s).length := by
  refine ⟨?_, ?_⟩
  · intro escaped ascii backslashes p passes enough
    rw [unescapeMountLoop_eq enough, unescapeMount_escapeWith ascii backslashes]
  · intro s passes enough
    obtain ⟨ended, shorter⟩ := unescapeLoop_total enough
    exact ⟨_, ended, shorter⟩

/-- A directory whose name looks like an escape, and an escape cut at the end. -/
theorem unescapeMountLoop_leftInverse_nested :
    unescapeMountLoop 14 "/a\\040b\\134061".toList = some "/a b\\061".toList ∧
    ∃ out, unescapeLoop 5 (utf8Bytes "/a\\04".toList) = some out ∧ out.length ≤ 5 := by
  have ascii : ∀ c : Char, (c = ' ' || c = '\\') = true → c.toNat < 128 := by
    intro c either
    rcases Bool.or_eq_true_iff.mp either with space | slash
    · rw [of_decide_eq_true space]
      decide
    · rw [of_decide_eq_true slash]
      decide
  have whole : (utf8Bytes "/a\\04".toList).length = 5 := by decide +kernel
  have escape : escapeWith (fun c => c = ' ' || c = '\\') "/a b\\061".toList =
      "/a\\040b\\134061".toList := by
    decide +kernel
  have enough : (utf8Bytes "/a\\040b\\134061".toList).length ≤ 14 := by decide +kernel
  refine ⟨?_, ?_⟩
  · have back := unescapeMountLoop_leftInverse.1 _ ascii rfl "/a b\\061".toList 14
    rw [escape] at back
    exact back enough
  · rw [← whole]
    exact unescapeMountLoop_leftInverse.2 _ _ (Nat.le_refl _)

end UnescapeLoop

end GlancesRs
