import GlancesRs.Config.Validated
import GlancesRs.Server.Security

namespace GlancesRs

open Data

/-! From the configuration file to the password gate: who is let in on an
address the network reaches. -/

variable {toml : Crates} {crates : SecurityCrates} {environment : String → Option String}
variable {document : String} {config : Config} {server resolved : ServerConfig}

/-- What starting on a non-loopback address promises for one document: a secret
is set, it is not empty, and only requests that present it pass. -/
def NoSilentDegradation (toml : Crates) (crates : SecurityCrates)
    (environment : String → Option String) (document : String) : Prop :=
  ∀ config, Config.fromToml toml environment document = .ok config →
    config.server.bind.isLoopback = false →
    checkSecurity config.server.bind config.server.password = .ok () →
    ∃ secret, config.server.password = some secret ∧ secret ≠ "" ∧
      ∀ request, requireAuth crates config request = .next → request.Presents crates secret

/-- The document sets `password = ""` itself, in a configuration that is valid
otherwise and binds a non-loopback address. -/
def DeclaresEmptyPassword (toml : Crates) (document : String) : Prop :=
  ∃ parsed, toml.tomlFromStr document = .ok parsed ∧ parsed.validate toml = .ok () ∧
    parsed.server.bind.isLoopback = false ∧ parsed.server.password = some "" ∧
    parsed.server.passwordEnv = none

/-- The password is the document's own, or that of a variable that is not empty. -/
theorem resolvePassword_cases (resolving : server.resolvePassword environment = .ok resolved) :
    (server.passwordEnv = none ∧ resolved = server) ∨
      ∃ secret, secret ≠ "" ∧
        resolved = { server with password := some secret, passwordEnv := none } := by
  rw [ServerConfig.resolvePassword] at resolving
  split at resolving
  · cases resolving
  · split at resolving
    · cases resolving
    · rename_i value _
      split at resolving
      · cases resolving
      · rename_i nonempty
        cases resolving
        exact .inr ⟨value, by simpa [String.isEmpty_iff] using nonempty, rfl⟩
  · rename_i unset
    cases resolving
    exact .inl ⟨unset, rfl⟩

theorem resolvePassword_bind (resolving : server.resolvePassword environment = .ok resolved) :
    resolved.bind = server.bind := by
  obtain ⟨_, rfl⟩ | ⟨_, _, rfl⟩ := resolvePassword_cases resolving
  · rfl
  · rfl

theorem resolvePassword_password {secret : String}
    (resolving : server.resolvePassword environment = .ok resolved)
    (known : resolved.password = some secret) :
    (server.password = some secret ∧ server.passwordEnv = none) ∨ secret ≠ "" := by
  obtain ⟨unset, rfl⟩ | ⟨value, nonempty, rfl⟩ := resolvePassword_cases resolving
  · exact .inl ⟨known, unset⟩
  · cases known
    exact .inr nonempty

theorem checkSecurity_ok {bind : IpAddr} {password : Option String} :
    checkSecurity bind password = .ok () ↔
      (bind.isLoopback = false → ∃ secret, password = some secret) := by
  rw [checkSecurity]
  cases bind.isLoopback <;> cases password <;> simp

/-- The guarantee holds for every document but those that set an empty password
themselves: that one source of the secret is not checked for emptiness. -/
theorem noSilentDegradation_iff (documented : crates.Documented) :
    NoSilentDegradation toml crates environment document ↔ ¬ DeclaresEmptyPassword toml document := by
  constructor
  · intro guaranteed declared
    obtain ⟨parsed, parsing, valid, reachable, empty, unset⟩ := declared
    have resolving : parsed.server.resolvePassword environment = .ok parsed.server := by
      simp [ServerConfig.resolvePassword, empty, unset]
    have accepted := Config.fromToml_ok.mpr ⟨parsed, _, parsing, valid, resolving, rfl⟩
    have started : checkSecurity parsed.server.bind parsed.server.password = .ok () :=
      checkSecurity_ok.mpr fun _ => ⟨"", empty⟩
    obtain ⟨secret, known, nonempty, _⟩ := guaranteed _ accepted reachable started
    rw [empty, Option.some.injEq] at known
    exact nonempty known.symm
  · intro declared config accepted reachable started
    obtain ⟨secret, known⟩ := checkSecurity_ok.mp started reachable
    refine ⟨secret, known, ?_, fun request => (requireAuth_next_iff documented known).mp⟩
    obtain ⟨parsed, server, parsing, valid, resolving, rfl⟩ := Config.fromToml_ok.mp accepted
    rcases resolvePassword_password resolving known with ⟨literal, unset⟩ | nonempty
    · intro empty
      subst empty
      exact declared ⟨parsed, parsing, valid, resolvePassword_bind resolving ▸ reachable, literal, unset⟩
    · exact nonempty

def secretFromEnvironment : Config where
  server := { bind := .v4 0 0 0 0, passwordEnv := some "GLANCES_PASSWORD" }

theorem secretFromEnvironment_noSilentDegradation :
    NoSilentDegradation
      (.ofDocument "[server]\nbind = \"0.0.0.0\"\npassword_env = \"GLANCES_PASSWORD\"\n"
        secretFromEnvironment)
      (.decoding "YTpi" "a:b") (fun _ => some "b")
      "[server]\nbind = \"0.0.0.0\"\npassword_env = \"GLANCES_PASSWORD\"\n" :=
  (noSilentDegradation_iff (SecurityCrates.decoding_documented "YTpi" "a:b")).mpr <| by
    intro declared
    obtain ⟨parsed, parsing, _, _, literal, _⟩ := declared
    cases parsing
    cases literal

def openBind : Config where
  server := { bind := .v4 0 0 0 0, password := some "" }

/-- `Authorization: Basic Og==`: an empty user name and an empty password. -/
def anonymous : Request where
  headers := [(.authorization, "Basic Og==".toUTF8)]

theorem openBind_exposed :
    Config.fromToml (.ofDocument "[server]\nbind = \"0.0.0.0\"\npassword = \"\"\n" openBind)
        (fun _ => none) "[server]\nbind = \"0.0.0.0\"\npassword = \"\"\n" = .ok openBind ∧
      checkSecurity openBind.server.bind openBind.server.password = .ok () ∧
      requireAuth (.decoding "Og==" ":") openBind anonymous = .next ∧
      ¬ NoSilentDegradation (.ofDocument "[server]\nbind = \"0.0.0.0\"\npassword = \"\"\n" openBind)
          (.decoding "Og==" ":") (fun _ => none) "[server]\nbind = \"0.0.0.0\"\npassword = \"\"\n" := by
  have accepted : Config.fromToml
      (.ofDocument "[server]\nbind = \"0.0.0.0\"\npassword = \"\"\n" openBind) (fun _ => none)
      "[server]\nbind = \"0.0.0.0\"\npassword = \"\"\n" = .ok openBind :=
    Config.fromToml_ofDocument (by decide +kernel) rfl
  refine ⟨accepted, rfl, by decide +kernel, fun guaranteed => ?_⟩
  obtain ⟨secret, known, nonempty, _⟩ := guaranteed openBind accepted rfl rfl
  cases known
  exact nonempty rfl

end GlancesRs
