import GlancesRs.Config.Discovery
import GlancesRs.Server.Exposure

namespace GlancesRs

open Data

/-! From the command line to the listener: what the process does for any arguments,
environment and files, up to where it binds its address. -/

section Display

/-- The first longest run of zeros: where it starts and its length. -/
def zeroSpan (segments : List ℕ) : ℕ × ℕ :=
  (segments.zipIdx.foldl (fun (longest, current) (segment, i) =>
    if segment = 0 then
      let current := (if current.2 = 0 then i else current.1, current.2 + 1)
      (if longest.2 < current.2 then current else longest, current)
    else (longest, (0, 0))) ((0, 0), (0, 0))).1

def fmtSubslice (segments : List ℕ) : String :=
  ":".intercalate (segments.map fun segment => .ofList (Nat.toDigits 16 segment))

/-- `Display` of an address: an IPv6 one with its longest run of zeros left out. -/
def IpAddr.display : IpAddr → String
  | .v4 a b c d => s!"{a}.{b}.{c}.{d}"
  | .v6 bits =>
      let segments := (List.range 8).map fun i => bits.toNat / 2 ^ (112 - 16 * i) % 2 ^ 16
      if segments.take 6 = [0, 0, 0, 0, 0, 0xFFFF] then
        let byte (i : ℕ) := bits.toNat / 2 ^ (24 - 8 * i) % 2 ^ 8
        s!"::ffff:{byte 0}.{byte 1}.{byte 2}.{byte 3}"
      else
        let (start, length) := zeroSpan segments
        if 1 < length then
          fmtSubslice (segments.take start) ++ "::" ++ fmtSubslice (segments.drop (start + length))
        else fmtSubslice segments

example : IpAddr.display (.v6 0x20010db8000000010000000000000001) = "2001:db8:0:1::1" := by
  decide +kernel

def StartupError.display : StartupError → String
  | .openBindWithoutPassword bind =>
      s!"refusing to start: bind address {bind.display} is reachable from the network " ++
        "but no password is configured. Set [server].password, or bind to a " ++
        "loopback address (ARCHITECTURE.md §7.1)"

end Display

def helpText : String :=
"glances-rs — lightweight monitoring server

Usage: glances-rs [OPTIONS]

Options:
  -c, --config <PATH>  Configuration file (default: discovery order in docs/api.md)
  -h, --help           Print this help
  -V, --version        Print the version

Logging is controlled with RUST_LOG (default: info)."

def versionText : String := "glances-rs 0.4.2"

inductive RunError where
  | arguments (message : String)
  | config (error : LoadError)
  | startup (error : StartupError)

def RunError.display : RunError → String
  | .arguments message => message
  | .config error => error.display
  | .startup error => error.display

/-- What `run` comes to without an error: a text, or the address to bind, with the
configuration in force and the file it is from. -/
inductive Started where
  | printed (text : String)
  | binds (config : Config) (source : Option PathBuf)

/-- `serve` up to the listener. -/
def serve (config : Config) (source : Option PathBuf) : Except StartupError Started := do
  checkSecurity config.server.bind config.server.password
  return .binds config source

/-- `run` after the command line is read. -/
def runParsed (crates : Crates) (process : Process) (parsed : Except String CliArgs) :
    Except RunError Started := do
  let args ← parsed.mapError .arguments
  if args.help then return .printed helpText
  else if args.version then return .printed versionText
  else do
    let (config, source) ← (process.load crates args.config).mapError .config
    (serve config source).mapError .startup

/-- `None` is a panic. -/
def run (crates : Crates) (process : Process) : Option (Except RunError Started) :=
  (parseArgs process.args).map (runParsed crates process)

/-- What the process leaves: a status of success after a text, a status of failure
after a message on the standard error, a panic, or a server. -/
inductive Outcome where
  | printed (text : String)
  | failed (message : String)
  | panicked
  | binds (config : Config) (source : Option PathBuf)

def main (crates : Crates) (process : Process) : Outcome :=
  match run crates process with
  | some (.ok (.printed text)) => .printed text
  | some (.ok (.binds config source)) => .binds config source
  | some (.error error) => .failed s!"glances-rs: {error.display}"
  | none => .panicked

/-- The whole command line is these options. -/
structure Process.Spelled (process : Process) (options : List CliOption) : Prop where
  ends : process.args.panics = false
  spelled : SpellsAll process.args.texts options

/-- The command line asks for a server, by these options. -/
structure Process.Asks (process : Process) (options : List CliOption) : Prop where
  line : process.Spelled options
  no_help : .help ∉ options
  no_version : .version ∉ options

/-- Everything that keeps the process from starting. -/
inductive Process.Refuses (crates : Crates) (process : Process) : RunError → Prop where
  | misspelled {message : String} (wrong : Misspelled process.args.panics process.args.texts message) :
      Refuses crates process (.arguments message)
  | unconfigured {options : List CliOption} {error : LoadError} (asks : process.Asks options)
      (reason : process.Unconfigured crates (asked options).config error) :
      Refuses crates process (.config error)
  | exposed {options : List CliOption} {config : Config} {source : Option PathBuf}
      (asks : process.Asks options)
      (configured : process.Configures crates (asked options).config config source)
      (reachable : config.server.bind.isLoopback = false) (unset : config.server.password = none) :
      Refuses crates process (.startup (.openBindWithoutPassword config.server.bind))

/-- The parser asks for an argument that is not valid UTF-8. -/
structure Process.Unreadable (process : Process) : Prop where
  malformed : ∃ raw ∈ process.argv, fromUtf8 raw = none
  reached : CutShort process.args.texts

variable {crates : Crates} {process : Process} {options : List CliOption} {config : Config}
variable {source : Option PathBuf} {error : RunError} {text : String}

theorem serve_ok {started : Started} : serve config source = .ok started ↔
    (config.server.bind.isLoopback = true ∨ config.server.password ≠ none) ∧
      started = .binds config source := by
  rw [serve, except_bind_unit_eq_ok, checkSecurity_ok]
  cases config.server.bind.isLoopback <;> cases config.server.password <;>
    simp [pure, Except.pure, eq_comm]

theorem serve_error {refused : StartupError} : serve config source = .error refused ↔
    config.server.bind.isLoopback = false ∧ config.server.password = none ∧
      refused = .openBindWithoutPassword config.server.bind := by
  rw [serve, checkSecurity]
  cases config.server.bind.isLoopback <;> cases config.server.password <;>
    simp [pure, Except.pure, bind, Except.bind, eq_comm]

theorem run_spelled (line : process.Spelled options) :
    run crates process = some (runParsed crates process (.ok (asked options))) := by
  rw [run, parseArgs_spelled line.ends line.spelled]
  rfl

/-- Past the two flags that only print. -/
theorem run_asks (asks : process.Asks options) : run crates process =
    some ((process.load crates (asked options).config).mapError .config >>= fun loaded =>
      (serve loaded.1 loaded.2).mapError .startup) := by
  have help : (asked options).help = false := decide_eq_false asks.no_help
  have version : (asked options).version = false := decide_eq_false asks.no_version
  rw [run_spelled asks.line, runParsed]
  simp only [Except.mapError, bind, Except.bind, help, version]
  rfl

theorem run_help (line : process.Spelled options) (help : .help ∈ options) :
    run crates process = some (.ok (.printed helpText)) := by
  have set : (asked options).help = true := decide_eq_true help
  rw [run_spelled line, runParsed]
  simp only [Except.mapError, bind, Except.bind, set]
  rfl

theorem run_version (line : process.Spelled options) (no_help : .help ∉ options)
    (version : .version ∈ options) : run crates process = some (.ok (.printed versionText)) := by
  have help : (asked options).help = false := decide_eq_false no_help
  have set : (asked options).version = true := decide_eq_true version
  rw [run_spelled line, runParsed]
  simp only [Except.mapError, bind, Except.bind, help, set]
  rfl

theorem run_misspelled {message : String}
    (wrong : Misspelled process.args.panics process.args.texts message) :
    run crates process = some (.error (.arguments message)) := by
  rw [run, parseArgs_misspelled wrong]
  rfl

theorem run_none : run crates process = none ↔ process.Unreadable := by
  rw [run, Option.map_eq_none_iff, parseArgs_none]
  constructor
  · intro parts
    exact ⟨envArgs_panics.mp parts.1, parts.2⟩
  · intro unreadable
    exact ⟨envArgs_panics.mpr unreadable.malformed, unreadable.reached⟩

/-- The five kinds of command lines. -/
theorem Process.line_cases (process : Process) :
    process.Unreadable ∨
      (∃ message, Misspelled process.args.panics process.args.texts message) ∨
      (∃ options, process.Spelled options ∧ .help ∈ options) ∨
      (∃ options, process.Spelled options ∧ .help ∉ options ∧ .version ∈ options) ∨
      ∃ options, process.Asks options := by
  rcases GlancesRs.line_cases process.args.panics process.args.texts with
    ⟨ends, options, spelled⟩ | wrong | ⟨cut, short⟩
  · by_cases help : .help ∈ options
    · exact .inr (.inr (.inl ⟨options, ⟨ends, spelled⟩, help⟩))
    · by_cases version : .version ∈ options
      · exact .inr (.inr (.inr (.inl ⟨options, ⟨ends, spelled⟩, help, version⟩)))
      · exact .inr (.inr (.inr (.inr ⟨options, ⟨ends, spelled⟩, help, version⟩)))
  · exact .inr (.inl wrong)
  · exact .inl ⟨envArgs_panics.mp cut, short⟩

/-- The server that is asked for starts with its configuration, or does not. -/
theorem run_asks_ok {started : Started} (asks : process.Asks options) :
    run crates process = some (.ok started) ↔ ∃ config source,
      process.Configures crates (asked options).config config source ∧
      (config.server.bind.isLoopback = true ∨ config.server.password ≠ none) ∧
      started = .binds config source := by
  rw [run_asks asks, Option.some.injEq, except_bind_eq_ok]
  constructor
  · intro ran
    obtain ⟨⟨config, source⟩, loaded, served⟩ := ran
    have configured := Process.load_ok.mp (except_mapError_eq_ok.mp loaded)
    exact ⟨config, source, configured, serve_ok.mp (except_mapError_eq_ok.mp served)⟩
  · intro parts
    obtain ⟨config, source, configured, served⟩ := parts
    exact ⟨(config, source), except_mapError_eq_ok.mpr (Process.load_ok.mpr configured),
      except_mapError_eq_ok.mpr (serve_ok.mpr served)⟩

theorem run_asks_error (asks : process.Asks options)
    (refused : run crates process = some (.error error)) : process.Refuses crates error := by
  rw [run_asks asks, Option.some.injEq] at refused
  rcases except_bind_eq_error.mp refused with unloaded | ⟨⟨config, source⟩, loaded, unserved⟩
  · obtain ⟨reason, failed, rfl⟩ := except_mapError_eq_error.mp unloaded
    exact .unconfigured asks (Process.load_error.mp failed)
  · have configured := Process.load_ok.mp (except_mapError_eq_ok.mp loaded)
    obtain ⟨reason, failed, rfl⟩ := except_mapError_eq_error.mp unserved
    obtain ⟨reachable, unset, rfl⟩ := serve_error.mp failed
    exact .exposed asks configured reachable unset

theorem run_binds : run crates process = some (.ok (.binds config source)) ↔ ∃ options,
    process.Asks options ∧ process.Configures crates (asked options).config config source ∧
      (config.server.bind.isLoopback = true ∨ config.server.password ≠ none) := by
  constructor
  · intro ran
    rcases process.line_cases with unreadable | ⟨_, wrong⟩ | ⟨_, line, help⟩ |
      ⟨_, line, help, version⟩ | ⟨options, asks⟩
    · cases (run_none.mpr unreadable).symm.trans ran
    · cases (run_misspelled wrong).symm.trans ran
    · cases (run_help line help).symm.trans ran
    · cases (run_version line help version).symm.trans ran
    · obtain ⟨_, _, configured, closed, same⟩ := (run_asks_ok asks).mp ran
      cases same
      exact ⟨options, asks, configured, closed⟩
  · intro parts
    obtain ⟨options, asks, configured, closed⟩ := parts
    exact (run_asks_ok asks).mpr ⟨config, source, configured, closed, rfl⟩

theorem run_printed : run crates process = some (.ok (.printed text)) ↔ ∃ options,
    process.Spelled options ∧ (.help ∈ options ∧ text = helpText ∨
      .help ∉ options ∧ .version ∈ options ∧ text = versionText) := by
  constructor
  · intro ran
    rcases process.line_cases with unreadable | ⟨_, wrong⟩ | ⟨options, line, help⟩ |
      ⟨options, line, help, version⟩ | ⟨_, asks⟩
    · cases (run_none.mpr unreadable).symm.trans ran
    · cases (run_misspelled wrong).symm.trans ran
    · cases (run_help line help).symm.trans ran
      exact ⟨options, line, .inl ⟨help, rfl⟩⟩
    · cases (run_version line help version).symm.trans ran
      exact ⟨options, line, .inr ⟨help, version, rfl⟩⟩
    · obtain ⟨_, _, _, _, same⟩ := (run_asks_ok asks).mp ran
      cases same
  · intro parts
    obtain ⟨options, line, ⟨help, rfl⟩ | ⟨help, version, rfl⟩⟩ := parts
    · exact run_help line help
    · exact run_version line help version

theorem run_error : run crates process = some (.error error) ↔ process.Refuses crates error := by
  constructor
  · intro refused
    rcases process.line_cases with unreadable | ⟨_, wrong⟩ | ⟨_, line, help⟩ |
      ⟨_, line, help, version⟩ | ⟨_, asks⟩
    · cases (run_none.mpr unreadable).symm.trans refused
    · cases (run_misspelled wrong).symm.trans refused
      exact .misspelled wrong
    · cases (run_help line help).symm.trans refused
    · cases (run_version line help version).symm.trans refused
    · exact run_asks_error asks refused
  · intro reason
    cases reason with
    | misspelled wrong => exact run_misspelled wrong
    | unconfigured asks reason =>
        rw [run_asks asks, Process.load_error.mpr reason]
        rfl
    | exposed asks configured reachable unset =>
        rw [run_asks asks, Process.load_ok.mpr configured]
        simp only [Except.mapError, bind, Except.bind, serve_error.mpr ⟨reachable, unset, rfl⟩]

/-- The files the process looks at. -/
def Process.Reads (process : Process) (path : PathBuf) : Prop :=
  ∃ options, process.Asks options ∧ process.Consults (asked options).config path

theorem run_congr {other : Process} (argv : other.argv = process.argv)
    (vars : other.varOs = process.varOs)
    (files : ∀ path, process.Reads path → other.isFile path = process.isFile path ∧
      other.readToString path = process.readToString path) :
    run crates other = run crates process := by
  have args : other.args = process.args := by rw [Process.args, argv, Process.args]
  rcases process.line_cases with unreadable | ⟨message, wrong⟩ | ⟨options, line, help⟩ |
    ⟨options, line, help, version⟩ | ⟨options, asks⟩
  · rw [run_none.mpr unreadable,
      run_none.mpr ⟨argv ▸ unreadable.malformed, args ▸ unreadable.reached⟩]
  · rw [run_misspelled wrong, run_misspelled (args ▸ wrong)]
  · rw [run_help line help, run_help ⟨args ▸ line.ends, args ▸ line.spelled⟩ help]
  · rw [run_version line help version,
      run_version ⟨args ▸ line.ends, args ▸ line.spelled⟩ help version]
  · have others : other.Asks options :=
      ⟨⟨args ▸ asks.line.ends, args ▸ asks.line.spelled⟩, asks.no_help, asks.no_version⟩
    rw [run_asks asks, run_asks others,
      Process.load_congr vars fun path consulted => files path ⟨options, asks, consulted⟩]

section Walks

variable {tomlFromStr : String → Except TomlError Config}

/-- Only which fault of a document is named may differ. -/
inductive RunError.Alike : RunError → RunError → Prop where
  | same (error : RunError) : Alike error error
  | config {error other : LoadError} (alike : error.Alike other) : Alike (.config error) (.config other)

inductive Started.Alike : Started → Started → Prop where
  | printed (text : String) : Alike (.printed text) (.printed text)
  | binds {config other : Config} (walked : config.Rewalked other) (source : Option PathBuf) :
      Alike (.binds config source) (.binds other source)

/-- Another run over the same inputs: the same outcome, but for the fault that is named. -/
inductive Outcome.Alike : Outcome → Outcome → Prop where
  | printed (text : String) : Alike (.printed text) (.printed text)
  | panicked : Alike .panicked .panicked
  | binds {config other : Config} (walked : config.Rewalked other) (source : Option PathBuf) :
      Alike (.binds config source) (.binds other source)
  | failed {error other : RunError} (alike : error.Alike other) :
      Alike (.failed s!"glances-rs: {error.display}") (.failed s!"glances-rs: {other.display}")

theorem serve_rewalked {other : Config} (walked : config.Rewalked other) :
    ExceptRel Eq Started.Alike (serve config source) (serve other source) := by
  have checked : ExceptRel Eq Eq (checkSecurity config.server.bind config.server.password)
      (checkSecurity config.server.bind config.server.password) := .refl (fun _ => rfl) (fun _ => rfl) _
  rw [serve, serve, walked.server]
  exact checked.bind fun _ _ _ => .ok (.binds walked source)

theorem runParsed_rewalked (rewalks : crates.Rewalks tomlFromStr) (parsed : Except String CliArgs) :
    ExceptRel RunError.Alike Started.Alike (runParsed crates process parsed)
      (runParsed { crates with tomlFromStr } process parsed) := by
  have read : ExceptRel RunError.Alike Eq (parsed.mapError .arguments) (parsed.mapError .arguments) :=
    .refl .same (fun _ => rfl) _
  refine read.bind fun args other same => ?_
  subst same
  cases args.help with
  | true => exact .ok (.printed helpText)
  | false =>
      cases args.version with
      | true => exact .ok (.printed versionText)
      | false =>
          have loaded : ExceptRel RunError.Alike Process.LoadedAlike
              ((process.load crates args.config).mapError .config)
              ((process.load { crates with tomlFromStr } args.config).mapError .config) :=
            (Process.load_rewalked rewalks).mapError fun _ _ alike => .config alike
          refine loaded.bind fun (config, source) (other, found) alike => ?_
          obtain ⟨walked, same⟩ := alike
          cases same
          refine (serve_rewalked walked).mapError fun left right same => ?_
          subst same
          exact .same _

theorem main_rewalked (rewalks : crates.Rewalks tomlFromStr) :
    (main crates process).Alike (main { crates with tomlFromStr } process) := by
  rw [main, main, run, run]
  cases parseArgs process.args with
  | none => exact .panicked
  | some parsed =>
      have alike := @runParsed_rewalked crates process tomlFromStr rewalks parsed
      simp only [Option.map_some]
      generalize runParsed crates process parsed = first at alike
      generalize runParsed { crates with tomlFromStr } process parsed = second at alike
      cases alike with
      | error related => exact .failed related
      | ok related =>
          cases related with
          | printed text => exact .printed text
          | binds walked source => exact .binds walked source

end Walks

/-- What the process does is determined by the options its arguments spell, the file
it chooses and the password rule; and by no file that it does not look at. A path that
was given and is not there is an error, whatever the usual places hold. The order in which
its maps are walked decides which fault of a document is reported, and nothing else. -/
theorem startup_exact (crates : Crates) (process : Process) :
    (∀ config source, main crates process = .binds config source ↔ ∃ options,
      process.Asks options ∧ process.Configures crates (asked options).config config source ∧
        (config.server.bind.isLoopback = true ∨ config.server.password ≠ none)) ∧
    (∀ config source, main crates process = .binds config source → config.Validated crates) ∧
    (∀ text, main crates process = .printed text ↔ ∃ options, process.Spelled options ∧
      (.help ∈ options ∧ text = helpText ∨
        .help ∉ options ∧ .version ∈ options ∧ text = versionText)) ∧
    (∀ message, main crates process = .failed message ↔ ∃ error,
      process.Refuses crates error ∧ message = s!"glances-rs: {error.display}") ∧
    (main crates process = .panicked ↔ process.Unreadable) ∧
    (∀ other : Process, other.argv = process.argv → other.varOs = process.varOs →
      (∀ path, process.Reads path → other.isFile path = process.isFile path ∧
        other.readToString path = process.readToString path) →
      main crates other = main crates process) ∧
    ∀ tomlFromStr, crates.Rewalks tomlFromStr →
      (main crates process).Alike (main { crates with tomlFromStr } process) := by
  have bound : ∀ config source, main crates process = .binds config source ↔
      run crates process = some (.ok (.binds config source)) := by
    intro config source
    rw [main]
    split <;> simp_all
  refine ⟨fun config source => (bound config source).trans run_binds, ?_, ?_, ?_, ?_, ?_,
    fun _ rewalks => main_rewalked rewalks⟩
  · intro config source listens
    obtain ⟨_, _, configured, _⟩ := run_binds.mp ((bound config source).mp listens)
    exact configured.validated
  · intro text
    refine Iff.trans ?_ (@run_printed crates process text)
    rw [main]
    split <;> simp_all
  · intro message
    rw [main]
    split
    · rename_i ran
      simp [← run_error, ran]
    · rename_i ran
      simp [← run_error, ran]
    · rename_i error ran
      simp [← run_error, ran, eq_comm]
    · rename_i ran
      simp [← run_error, ran]
  · refine Iff.trans ?_ (@run_none crates process)
    rw [main]
    split <;> simp_all
  · intro other argv vars files
    rw [main, main, run_congr argv vars files]

end GlancesRs
