import GlancesRs.Config.Model
import GlancesRs.Data.Text
import GlancesRs.Data.Utf8
import GlancesRs.Data.Words

namespace GlancesRs

open Data

/-! Startup check and the security layers of the `/api/5` routes. -/

inductive StartupError where
  | openBindWithoutPassword (bind : IpAddr)
deriving DecidableEq

/-- The one refusal of the startup grid: a non-loopback bind without a password. -/
def checkSecurity (bind : IpAddr) (password : Option String) : Except StartupError Unit :=
  if !bind.isLoopback && password.isNone then .error (.openBindWithoutPassword bind) else .ok ()

inductive HeaderName where
  | host | authorization
  | other (name : String)
deriving DecidableEq

/-- A `GET` that the CORS layer has let through: it is the outermost, answers `OPTIONS`
itself and adds headers of its own to the replies. -/
structure Request where
  headers : List (HeaderName × ByteArray)

/-- `HeaderMap::get`: the first value under a name. -/
def Request.header (request : Request) (name : HeaderName) : Option ByteArray :=
  request.headers.lookup name

structure Response where
  status : ℕ
  headers : List (String × String) := []
  body : String := ""
deriving DecidableEq

inductive Layer where
  | next
  | respond (response : Response)
deriving DecidableEq

/-- The functions outside this source tree that the layers call:
`HeaderValue::to_str`, `BASE64_STANDARD.decode` and `constant_time_eq`. -/
structure SecurityCrates where
  toStr : ByteArray → Option String
  base64Decode : String → Option ByteArray
  constantTimeEq : ByteArray → ByteArray → Bool

/-- What `HeaderValue::to_str` reads: visible ASCII, blanks and tabs. -/
def isVisibleAscii (c : Char) : Bool :=
  32 ≤ c.toNat && c.toNat < 127 || c == '\t'

def basicPassword (crates : SecurityCrates) (request : Request) : Option String := do
  let header ← request.header .authorization
  let value ← crates.toStr header
  let encoded ← "Basic ".toList.isPrefixOf? value.toList
  let decoded ← crates.base64Decode (trim (.ofList encoded))
  let text ← String.fromUTF8? decoded
  let (_, password) ← splitOnce ':' text.toList
  return .ofList password

def unauthorized : Response where
  status := 401
  headers := [("www-authenticate", "Basic realm=\"glances-rs\"")]

/-- Without a password every request passes: the startup check is what confines
that case to loopback. -/
def requireAuth (crates : SecurityCrates) (config : Config) (request : Request) : Layer :=
  match config.server.password with
  | none => .next
  | some expected =>
      match basicPassword crates request with
      | some provided =>
          if crates.constantTimeEq provided.toUTF8 expected.toUTF8 then .next
          else .respond unauthorized
      | none => .respond unauthorized

def stripPort (host : String) : String :=
  match host.toList with
  | '[' :: rest => .ofList (firstPiece ']' rest)
  | chars =>
      match rsplitOnce ':' chars with
      | some (before, _) => .ofList before
      | none => host

def hostAllowed (host : Option String) (trusted : List String) : Bool :=
  match host with
  | none => true
  | some host =>
      trusted.isEmpty || trusted.any fun t => t == host || t == stripPort host

def hostNotAllowed : Response where
  status := 400
  headers := [("content-type", "text/plain; charset=utf-8")]
  body := "host not allowed"

def requireTrustedHost (crates : SecurityCrates) (config : Config) (request : Request) : Layer :=
  let host := (request.header .host).bind crates.toStr
  if hostAllowed host config.security.trustedHosts then .next
  else .respond hostNotAllowed

/-- What those functions document: `to_str` reads back visible ASCII, and the
comparison, whatever its timing, decides equality. -/
structure SecurityCrates.Documented (crates : SecurityCrates) : Prop where
  toStr_visible : ∀ text : String, text.toList.all isVisibleAscii = true →
    crates.toStr text.toUTF8 = some text
  constantTimeEq_iff : ∀ left right, crates.constantTimeEq left right = true ↔ left = right

variable {crates : SecurityCrates} {config : Config} {request : Request}

/-- The request names `secret` as its password: an `Authorization` header of
scheme `Basic` whose decoded text is a user name, a colon and `secret`. -/
def Request.Presents (crates : SecurityCrates) (request : Request) (secret : String) : Prop :=
  ∃ value text encoded user,
    request.header .authorization = some value ∧ crates.toStr value = some text ∧
    text = "Basic " ++ encoded ∧
    crates.base64Decode (trim encoded) = some (user ++ ":" ++ secret).toUTF8 ∧ ':' ∉ user.toList

theorem basicPassword_eq_some {secret : String} :
    basicPassword crates request = some secret ↔ request.Presents crates secret := by
  simp only [basicPassword, Request.Presents, Option.bind_eq_bind, Option.bind_eq_some_iff,
    Option.pure_def, Option.some.injEq, Prod.exists, fromUTF8?_eq_some, splitOnce_eq_some,
    List.isPrefixOf?_eq_some_iff_append_eq]
  constructor
  · intro taken
    obtain ⟨value, found, text, read, encoded, scheme, _, decoded, plain, rfl, user, password,
      ⟨parts, noColon⟩, rfl⟩ := taken
    refine ⟨value, text, .ofList encoded, .ofList user, found, read, ?_, ?_, by simpa⟩
    · rw [← String.toList_inj, ← scheme]
      simp
    · have whole : plain = .ofList user ++ ":" ++ .ofList password := by
        rw [← String.toList_inj, parts]
        simp
      rw [decoded, whole]
  · intro presented
    obtain ⟨value, _, encoded, user, found, read, rfl, decoded, noColon⟩ := presented
    exact ⟨value, found, _, read, encoded.toList, by simp, _,
      by simpa only [String.ofList_toList] using decoded, _, rfl, user.toList,
      secret.toList, ⟨by simp, noColon⟩, by simp⟩

theorem requireAuth_next_iff {secret : String} (documented : crates.Documented)
    (known : config.server.password = some secret) :
    requireAuth crates config request = .next ↔ request.Presents crates secret := by
  rw [← basicPassword_eq_some]
  simp only [requireAuth, known]
  cases presented : basicPassword crates request with
  | none => simp
  | some provided =>
      have compared : crates.constantTimeEq provided.toUTF8 secret.toUTF8 = true ↔
          provided = secret := by
        rw [documented.constantTimeEq_iff]
        exact String.toByteArray_inj
      simp only [compared, Option.some.injEq]
      split <;> simp_all

def SecurityCrates.decoding (encoded decoded : String) : SecurityCrates where
  toStr bytes := (String.fromUTF8? bytes).filter fun text => text.toList.all isVisibleAscii
  base64Decode text := if text = encoded then some decoded.toUTF8 else none
  constantTimeEq left right := left.data = right.data

theorem SecurityCrates.decoding_documented (encoded decoded : String) :
    (SecurityCrates.decoding encoded decoded).Documented := by
  refine ⟨fun text visible => ?_, fun left right => by simp [decoding, ByteArray.ext_iff]⟩
  have read : String.fromUTF8? text.toUTF8 = some text := fromUTF8?_eq_some.mpr rfl
  simp only [decoding, read, Option.filter_some, visible, if_true]

end GlancesRs
