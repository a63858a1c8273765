import GlancesRs.Server.Security

namespace GlancesRs

open Data

/-! Which `Host` headers the trusted-host layer passes on. The port is cut off,
not parsed: whatever follows the last colon, or the closing bracket, goes. -/

variable {crates : SecurityCrates} {config : Config} {request : Request} {host text entry : String}

/-- The texts `entry` admits: itself, itself before a last colon, or itself
between brackets, where the closing one and what follows are optional. -/
def Admits (entry text : List Char) : Prop :=
  text = entry ∨
  (text.head? ≠ some '[' ∧ ∃ port, ':' ∉ port ∧ text = entry ++ ':' :: port) ∨
  (']' ∉ entry ∧ (text = '[' :: entry ∨ ∃ rest, text = '[' :: entry ++ ']' :: rest))

/-- An authority naming `entry`: with or without brackets and a decimal port. -/
def NamesAuthority (entry text : List Char) : Prop :=
  ∃ port, (port = [] ∨ ∃ digits : List Char, digits.all Char.isDigit = true ∧ port = ':' :: digits) ∧
    (text = entry ++ port ∨ text = '[' :: entry ++ ']' :: port)

theorem stripPort_bracketed {rest : List Char} (bracketed : host.toList = '[' :: rest) :
    stripPort host = entry ↔
      ']' ∉ entry.toList ∧ (host.toList = '[' :: entry.toList ∨
        ∃ after, host.toList = '[' :: entry.toList ++ ']' :: after) := by
  have piece : stripPort host = .ofList (firstPiece ']' rest) := by
    simp [stripPort, bracketed]
  rw [piece, ← String.toList_inj, String.toList_ofList, firstPiece_eq_iff, bracketed]
  simp

theorem stripPort_plain (plain : host.toList.head? ≠ some '[') :
    stripPort host = entry ↔
      (∃ port, ':' ∉ port ∧ host.toList = entry.toList ++ ':' :: port) ∨
        (':' ∉ host.toList ∧ host = entry) := by
  have search : stripPort host =
      (rsplitOnce ':' host.toList).elim host fun pieces => .ofList pieces.1 := by
    rw [stripPort]
    split
    · rename_i bracketed
      simp [bracketed] at plain
    · cases rsplitOnce ':' host.toList <;> rfl
  rw [search]
  cases found : rsplitOnce ':' host.toList with
  | none =>
      have absent := rsplitOnce_eq_none.mp found
      constructor
      · intro same
        subst same
        exact .inr ⟨absent, rfl⟩
      · intro shape
        rcases shape with ⟨port, _, whole⟩ | ⟨_, rfl⟩
        · simp [whole] at absent
        · rfl
  | some parts =>
      obtain ⟨before, after⟩ := parts
      obtain ⟨whole, noColon⟩ := rsplitOnce_eq_some.mp found
      constructor
      · intro same
        subst same
        exact .inl ⟨after, noColon, by simpa using whole⟩
      · intro shape
        rcases shape with ⟨port, absent, other⟩ | ⟨absent, _⟩
        · have same := rsplitOnce_eq_some.mpr ⟨other, absent⟩
          rw [found, Option.some.injEq, Prod.mk.injEq] at same
          simp [same.1]
        · simp [whole] at absent

theorem admits_iff : entry = host ∨ entry = stripPort host ↔ Admits entry.toList host.toList := by
  rw [@eq_comm _ entry host, ← String.toList_inj, @eq_comm _ entry (stripPort host)]
  cases chars : host.toList with
  | nil =>
      rw [stripPort_plain (by simp [chars]), ← String.toList_inj]
      simp [Admits, chars]
  | cons first rest =>
      by_cases bracket : first = '['
      · subst bracket
        rw [stripPort_bracketed chars, chars]
        simp [Admits]
      · have plain : host.toList.head? ≠ some '[' := by simpa [chars] using bracket
        rw [stripPort_plain plain, ← String.toList_inj, chars]
        simp only [Admits, List.head?_cons, ne_eq, Option.some.injEq, bracket, not_false_eq_true,
          true_and, List.cons.injEq, false_and, List.cons_append, exists_false, or_false, and_false]
        constructor
        · intro admitted
          rcases admitted with whole | ported | ⟨_, whole⟩
          · exact .inl whole
          · exact .inr ported
          · exact .inl whole
        · intro admitted
          rcases admitted with whole | ported
          · exact .inl whole
          · exact .inr (.inl ported)

theorem hostAllowed_iff {trusted : List String} (nonempty : trusted ≠ []) :
    hostAllowed (some host) trusted = true ↔ ∃ entry ∈ trusted, Admits entry.toList host.toList := by
  simp only [hostAllowed, Bool.or_eq_true, List.isEmpty_iff, nonempty, false_or, List.any_eq_true,
    beq_iff_eq, admits_iff]

/-- A readable `Host` header passes exactly when some trusted entry admits it. -/
theorem requireTrustedHost_iff (documented : crates.Documented)
    (nonempty : config.security.trustedHosts ≠ [])
    (sent : request.header .host = some text.toUTF8)
    (visible : text.toList.all isVisibleAscii = true) :
    requireTrustedHost crates config request = .next ↔
      ∃ entry ∈ config.security.trustedHosts, Admits entry.toList text.toList := by
  rw [← hostAllowed_iff nonempty]
  have read : (request.header .host).bind crates.toStr = some text := by
    rw [sent]
    exact documented.toStr_visible text visible
  simp only [requireTrustedHost, read]
  split <;> simp_all

def bracketedEntry : Config where
  security := { trustedHosts := ["[::1]"] }

def hostRequest (text : String) : Request where
  headers := [(.host, text.toUTF8)]

theorem requireTrustedHost_localhost :
    requireTrustedHost (.decoding "" "") {} (hostRequest "localhost:61208") = .next :=
  (requireTrustedHost_iff (SecurityCrates.decoding_documented "" "") (by simp) rfl
    (by decide +kernel)).mpr
    ⟨"localhost", by simp, .inr (.inl ⟨by decide, "61208".toList, by decide, by decide⟩)⟩

/-- The grammar of authorities is neither sound nor complete for the layer: a
port need not be a number, and a bracketed entry does not admit a port. -/
theorem requireTrustedHost_not_authority :
    (requireTrustedHost (.decoding "" "") {} (hostRequest "localhost:evil") = .next ∧
      ¬ ∃ entry ∈ ({} : Config).security.trustedHosts,
          NamesAuthority entry.toList "localhost:evil".toList) ∧
    (requireTrustedHost (.decoding "" "") bracketedEntry (hostRequest "[::1]:61208") ≠ .next ∧
      ∃ entry ∈ bracketedEntry.security.trustedHosts,
        NamesAuthority entry.toList "[::1]:61208".toList) := by
  refine ⟨⟨by decide +kernel, ?_⟩, by decide +kernel, "[::1]", by decide, ?_⟩
  · intro authority
    obtain ⟨entry, member, port, shape, whole⟩ := authority
    obtain rfl | rfl : entry = "localhost" ∨ entry = "127.0.0.1" := by simpa using member
    · obtain rfl : ":evil".toList = port := by simpa using whole
      simp at shape
    · simp at whole
  · exact ⟨":61208".toList, .inr ⟨"61208".toList, by decide, by decide⟩, .inl (by decide)⟩

end GlancesRs
