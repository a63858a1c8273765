import GlancesRs.Data.Base64
import GlancesRs.Server.Security

namespace GlancesRs

open Data

/-! The password gate, for every header and every password: the first colon ends
the user name, and the rest is compared as it is. -/

/-- What `BASE64_STANDARD` documents of itself: it decodes what it encodes, and it
writes printable ASCII without blanks. -/
structure SecurityCrates.Base64Engine (crates : SecurityCrates) (encode : ByteArray → String) : Prop where
  decode_encode : ∀ bytes, crates.base64Decode (encode bytes) = some bytes
  printable : ∀ bytes, ∀ c ∈ (encode bytes).toList, 33 ≤ c.toNat ∧ c.toNat < 127

/-- The header a client builds from a user name and a password. -/
def basicHeader (encode : ByteArray → String) (user password : String) : String :=
  "Basic " ++ encode (user ++ ":" ++ password).toUTF8

variable {crates : SecurityCrates} {encode : ByteArray → String} {config : Config}
variable {request : Request} {user password attempt : String}

theorem trim_of_printable {text : String}
    (printable : ∀ c ∈ text.toList, 33 ≤ c.toNat ∧ c.toNat < 127) : trim text = text := by
  have kept : ∀ c ∈ text.toList, isWhitespace c = false := by
    intro c inside
    obtain ⟨above, below⟩ := printable c inside
    exact isWhitespace_of_printable above below
  have first : text.toList.dropWhile isWhitespace = text.toList := by
    cases chars : text.toList with
    | nil => rfl
    | cons c rest => exact List.dropWhile_cons_of_neg (by simp [kept c (by simp [chars])])
  have last : text.toList.reverse.dropWhile isWhitespace = text.toList.reverse := by
    cases chars : text.toList.reverse with
    | nil => rfl
    | cons c rest =>
        have inside : c ∈ text.toList := List.mem_reverse.mp (by simp [chars])
        exact List.dropWhile_cons_of_neg (by simp [kept c inside])
  rw [trim, first, last, List.reverse_reverse, String.ofList_toList]

theorem basicHeader_visible (base64 : crates.Base64Engine encode) :
    (basicHeader encode user attempt).toList.all isVisibleAscii = true := by
  have scheme : "Basic ".toList.all isVisibleAscii = true := by decide +kernel
  rw [basicHeader, String.toList_append, List.all_append, scheme, Bool.true_and, List.all_eq_true]
  intro c inside
  obtain ⟨above, below⟩ := base64.printable _ c inside
  simp only [isVisibleAscii, Bool.or_eq_true, Bool.and_eq_true, decide_eq_true_eq]
  exact .inl ⟨by omega, below⟩

/-- The header built from `user` and `attempt` presents `attempt` and nothing else. -/
theorem presents_basicHeader (documented : crates.Documented) (base64 : crates.Base64Engine encode)
    (plain : ':' ∉ user.toList)
    (sent : request.header .authorization = some (basicHeader encode user attempt).toUTF8) :
    request.Presents crates password ↔ attempt = password := by
  have read := documented.toStr_visible _ (@basicHeader_visible crates encode user attempt base64)
  have body := @trim_of_printable _ (base64.printable (user ++ ":" ++ attempt).toUTF8)
  constructor
  · intro presented
    obtain ⟨value, text, encoded, other, found, shown, rfl, decoded, noColon⟩ := presented
    rw [sent, Option.some.injEq] at found
    subst found
    rw [read, Option.some.injEq, basicHeader, String.append_right_inj] at shown
    rw [← shown, body, base64.decode_encode, Option.some.injEq] at decoded
    have whole : user ++ ":" ++ attempt = other ++ ":" ++ password := String.toByteArray_inj.mp decoded
    have cut (name secret : String) (colonless : ':' ∉ name.toList) :
        splitOnce ':' (name ++ ":" ++ secret).toList = some (name.toList, secret.toList) :=
      splitOnce_eq_some.mpr ⟨by simp, colonless⟩
    have split := cut user attempt plain
    rw [whole, cut other password noColon, Option.some.injEq, Prod.mk.injEq] at split
    exact (String.toList_inj.mp split.2).symm
  · rintro rfl
    exact ⟨_, _, _, user, sent, read, rfl, by rw [body, base64.decode_encode], plain⟩

/-- The gate, for a configured password: what it lets pass, and what of a header
built from any user name and any attempt. -/
theorem basicAuth_exact (documented : crates.Documented) (base64 : crates.Base64Engine encode)
    (configured : config.server.password = some password) :
    (∀ request, requireAuth crates config request = .next ↔ request.Presents crates password) ∧
    ∀ request user attempt, ':' ∉ user.toList →
      request.header .authorization = some (basicHeader encode user attempt).toUTF8 →
      (requireAuth crates config request = .next ↔ attempt = password) := by
  constructor
  · intro request
    exact requireAuth_next_iff documented configured
  · intro request user attempt plain sent
    rw [requireAuth_next_iff documented configured]
    exact presents_basicHeader documented base64 plain sent

def encodeStandard (bytes : ByteArray) : String := .ofList (Base64.encode bytes.data.toList)

def SecurityCrates.standard : SecurityCrates where
  toStr bytes := (String.fromUTF8? bytes).filter fun text => text.toList.all isVisibleAscii
  base64Decode text := (Base64.decode text.toList).map List.toByteArray
  constantTimeEq left right := left.data = right.data

theorem SecurityCrates.standard_documented : SecurityCrates.standard.Documented := by
  obtain ⟨toStr_visible, constantTimeEq_iff⟩ := SecurityCrates.decoding_documented "" ""
  exact ⟨toStr_visible, constantTimeEq_iff⟩

theorem SecurityCrates.standard_base64 : SecurityCrates.standard.Base64Engine encodeStandard := by
  constructor
  · intro bytes
    have decoded := Base64.decode_encode bytes.data.toList
    have bytewise : bytes.data.toList.toByteArray = bytes := ByteArray.ext (by simp)
    simp only [standard, encodeStandard, String.toList_ofList, decoded, Option.map_some, bytewise]
  · intro bytes c inside
    rw [encodeStandard, String.toList_ofList] at inside
    exact Base64.encode_visible c inside

def colonPassword : Config where
  server := { password := some "a:b c" }

theorem colonPassword_basicAuth :
    requireAuth .standard colonPassword
        { headers := [(.authorization, (basicHeader encodeStandard "ann" "a:b c").toUTF8)] } = .next ∧
      requireAuth .standard colonPassword
        { headers := [(.authorization, (basicHeader encodeStandard "ann" "b c").toUTF8)] } ≠ .next := by
  have gate := (basicAuth_exact SecurityCrates.standard_documented SecurityCrates.standard_base64
    (show colonPassword.server.password = some "a:b c" from rfl)).2
  constructor
  · exact (gate _ "ann" "a:b c" (by decide) rfl).mpr rfl
  · intro passed
    exact absurd ((gate _ "ann" "b c" (by decide) rfl).mp passed) (by decide)

end GlancesRs
