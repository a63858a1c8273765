import GlancesRs.Config.CommandLine
import GlancesRs.Config.IterationOrder

namespace GlancesRs

open Data

/-! Where the configuration is looked for. A path that is given decides alone; the
usual places are tried in a fixed order. -/

structure IoError where
  message : String

/-- What the process reads before it listens: its arguments, the first of which is the name
of the program, its environment and its files. -/
structure Process where
  argv : List (List UInt8)
  varOs : String → Option (List UInt8)
  isFile : PathBuf → Bool
  readToString : PathBuf → Except IoError String

/-- The `ConfigError`s of `load`: the two of the document, and the two before it. -/
inductive LoadError where
  | explicitPathMissing (path : PathBuf)
  | read (path : PathBuf) (error : IoError)
  | document (error : ConfigError)

def ConfigError.display : ConfigError → String
  | .parse error => s!"invalid config: {error.message}"
  | .invalid message => s!"invalid config: {message}"

def LoadError.display : LoadError → String
  | .explicitPathMissing path => s!"config file not found: {path.display}"
  | .read path error => s!"cannot read {path.display}: {error.message}"
  | .document error => error.display

/-- Only which fault of a document is named may differ. -/
inductive LoadError.Alike : LoadError → LoadError → Prop where
  | same (error : LoadError) : Alike error error
  | document {error other : ConfigError} (alike : error.Alike other) :
      Alike (.document error) (.document other)

namespace Process

variable (process : Process)

/-- `std::env::args().skip(1)`. -/
def args : Args := (envArgs process.argv).skip 1

/-- `std::env::var`: only what is valid UTF-8. -/
def var (name : String) : Option String :=
  (process.varOs name).bind fun bytes => (fromUtf8 bytes).map String.ofList

def xdgConfigDir : Option PathBuf :=
  ((process.varOs "XDG_CONFIG_HOME").map PathBuf.mk).or
    ((process.varOs "HOME").map fun home => PathBuf.join ⟨home⟩ (.ofString ".config"))

def candidates : List PathBuf :=
  [.ofString "glances-rs.toml"] ++
    (process.xdgConfigDir.map fun dir =>
      (dir.join (.ofString "glances-rs")).join (.ofString "config.toml")).toList ++
    [.ofString "/etc/glances-rs/config.toml"]

def discoverPath (cliPath : Option PathBuf) : Except LoadError (Option PathBuf) :=
  match cliPath with
  | some path => if process.isFile path then .ok (some path) else .error (.explicitPathMissing path)
  | none =>
      match process.varOs "GLANCES_RS_CONFIG" with
      | some value =>
          let path : PathBuf := ⟨value⟩
          if process.isFile path then .ok (some path) else .error (.explicitPathMissing path)
      | none => .ok (process.candidates.find? process.isFile)

def load (crates : Crates) (cliPath : Option PathBuf) :
    Except LoadError (Config × Option PathBuf) := do
  match ← process.discoverPath cliPath with
  | some path =>
      let text ← (process.readToString path).mapError (.read path)
      let config ← (Config.fromToml crates process.var text).mapError .document
      return (config, some path)
  | none => return ({}, none)

/-- The path that was given, if any: the flag comes before the variable. -/
def given (cliPath : Option PathBuf) : Option PathBuf :=
  cliPath.or ((process.varOs "GLANCES_RS_CONFIG").map PathBuf.mk)

/-- The file the configuration comes from, if any. -/
inductive Chooses (cliPath : Option PathBuf) : Option PathBuf → Prop where
  | given {path : PathBuf} (named : process.given cliPath = some path)
      (file : process.isFile path = true) : Chooses cliPath (some path)
  | usual {before after : List PathBuf} {path : PathBuf} (unnamed : process.given cliPath = none)
      (places : process.candidates = before ++ path :: after)
      (absent : ∀ other ∈ before, process.isFile other = false)
      (file : process.isFile path = true) :
      Chooses cliPath (some path)
  | defaults (unnamed : process.given cliPath = none)
      (absent : ∀ other ∈ process.candidates, process.isFile other = false) : Chooses cliPath none

/-- The configuration is that of the chosen file, or the defaults without one. -/
inductive Configures (crates : Crates) (cliPath : Option PathBuf) :
    Config → Option PathBuf → Prop where
  | file {path : PathBuf} {text : String} {config : Config}
      (chosen : process.Chooses cliPath (some path))
      (readable : process.readToString path = .ok text)
      (accepted : Config.fromToml crates process.var text = .ok config) :
      Configures crates cliPath config (some path)
  | defaults (chosen : process.Chooses cliPath none) : Configures crates cliPath {} none

/-- Why there is no configuration. -/
inductive Unconfigured (crates : Crates) (cliPath : Option PathBuf) : LoadError → Prop where
  | missing {path : PathBuf} (named : process.given cliPath = some path)
      (absent : process.isFile path = false) :
      Unconfigured crates cliPath (.explicitPathMissing path)
  | unreadable {path : PathBuf} {error : IoError} (chosen : process.Chooses cliPath (some path))
      (failed : process.readToString path = .error error) :
      Unconfigured crates cliPath (.read path error)
  | rejected {path : PathBuf} {text : String} {error : ConfigError}
      (chosen : process.Chooses cliPath (some path))
      (readable : process.readToString path = .ok text)
      (invalid : Config.fromToml crates process.var text = .error error) :
      Unconfigured crates cliPath (.document error)

/-- The files that are looked at. -/
inductive Consults (cliPath : Option PathBuf) : PathBuf → Prop where
  | given {path : PathBuf} (named : process.given cliPath = some path) : Consults cliPath path
  | usual {before after : List PathBuf} {path : PathBuf} (unnamed : process.given cliPath = none)
      (places : process.candidates = before ++ path :: after)
      (absent : ∀ other ∈ before, process.isFile other = false) : Consults cliPath path

variable {process} {crates : Crates} {cliPath source : Option PathBuf} {config : Config}
variable {path : PathBuf} {error : LoadError}

theorem discoverPath_given (named : process.given cliPath = some path) :
    process.discoverPath cliPath =
      if process.isFile path then .ok (some path) else .error (.explicitPathMissing path) := by
  rw [given] at named
  cases cliPath with
  | some flag =>
      rw [Option.some_or, Option.some.injEq] at named
      rw [discoverPath, named]
  | none =>
      rw [Option.none_or, Option.map_eq_some_iff] at named
      obtain ⟨value, set, rfl⟩ := named
      rw [discoverPath, set]

theorem discoverPath_usual (unnamed : process.given cliPath = none) :
    process.discoverPath cliPath = .ok (process.candidates.find? process.isFile) := by
  rw [given, Option.or_eq_none_iff, Option.map_eq_none_iff] at unnamed
  obtain ⟨rfl, unset⟩ := unnamed
  rw [discoverPath, unset]

theorem discoverPath_ok : process.discoverPath cliPath = .ok source ↔
    process.Chooses cliPath source := by
  cases named : process.given cliPath with
  | some path =>
      rw [discoverPath_given named]
      constructor
      · intro found
        split at found
        · rename_i file
          cases found
          exact .given named file
        · cases found
      · intro chosen
        cases chosen with
        | given other file =>
            obtain rfl := Option.some.inj (named.symm.trans other)
            exact if_pos file
        | usual unnamed => cases named.symm.trans unnamed
        | defaults unnamed => cases named.symm.trans unnamed
  | none =>
      rw [discoverPath_usual named, Except.ok.injEq]
      constructor
      · intro found
        cases source with
        | some path =>
            obtain ⟨file, before, after, places, absent⟩ := List.find?_eq_some_iff_append.mp found
            exact .usual named places (fun other member => by simpa using absent other member) file
        | none =>
            exact .defaults named fun other member => by
              simpa using List.find?_eq_none.mp found other member
      · intro chosen
        cases chosen with
        | given other => cases named.symm.trans other
        | usual _ places absent file =>
            exact List.find?_eq_some_iff_append.mpr ⟨file, _, _, places, fun other member => by
              simp [absent other member]⟩
        | defaults _ absent =>
            exact List.find?_eq_none.mpr fun other member => by simp [absent other member]

theorem discoverPath_error : process.discoverPath cliPath = .error error ↔
    ∃ path, process.given cliPath = some path ∧ process.isFile path = false ∧
      error = .explicitPathMissing path := by
  cases named : process.given cliPath with
  | none => simp [discoverPath_usual named]
  | some path =>
      rw [discoverPath_given named]
      constructor
      · intro failed
        split at failed
        · cases failed
        · rename_i absent
          cases failed
          exact ⟨path, rfl, by simpa using absent, rfl⟩
      · intro parts
        obtain ⟨_, same, absent, rfl⟩ := parts
        cases same
        rw [absent]
        rfl

/-- The configuration and where it is from are what the choice of the file says. -/
theorem load_ok : process.load crates cliPath = .ok (config, source) ↔
    process.Configures crates cliPath config source := by
  rw [load]
  constructor
  · intro loaded
    obtain ⟨found, chosen, loaded⟩ := except_bind_eq_ok.mp loaded
    rw [discoverPath_ok] at chosen
    cases found with
    | none =>
        cases loaded
        exact .defaults chosen
    | some path =>
        obtain ⟨text, readable, loaded⟩ := except_bind_eq_ok.mp loaded
        obtain ⟨accepted, parsed, loaded⟩ := except_bind_eq_ok.mp loaded
        cases loaded
        exact .file chosen (except_mapError_eq_ok.mp readable) (except_mapError_eq_ok.mp parsed)
  · intro configured
    cases configured with
    | file chosen readable accepted =>
        rw [discoverPath_ok.mpr chosen]
        simp only [readable, accepted, Except.mapError, bind, Except.bind]
        rfl
    | defaults chosen =>
        rw [discoverPath_ok.mpr chosen]
        rfl

theorem load_error : process.load crates cliPath = .error error ↔
    process.Unconfigured crates cliPath error := by
  rw [load]
  constructor
  · intro failed
    rcases except_bind_eq_error.mp failed with unfound | ⟨found, chosen, failed⟩
    · obtain ⟨path, named, absent, rfl⟩ := discoverPath_error.mp unfound
      exact .missing named absent
    · rw [discoverPath_ok] at chosen
      cases found with
      | none => cases failed
      | some path =>
          rcases except_bind_eq_error.mp failed with unread | ⟨text, readable, failed⟩
          · obtain ⟨_, unreadable, rfl⟩ := except_mapError_eq_error.mp unread
            exact .unreadable chosen unreadable
          · have readable := except_mapError_eq_ok.mp readable
            rcases except_bind_eq_error.mp failed with unparsed | ⟨_, _, failed⟩
            · obtain ⟨_, invalid, rfl⟩ := except_mapError_eq_error.mp unparsed
              exact .rejected chosen readable invalid
            · cases failed
  · intro unconfigured
    cases unconfigured with
    | missing named absent =>
        rw [discoverPath_error.mpr ⟨_, named, absent, rfl⟩]
        rfl
    | unreadable chosen failed =>
        rw [discoverPath_ok.mpr chosen]
        simp only [failed, Except.mapError, bind, Except.bind]
    | rejected chosen readable invalid =>
        rw [discoverPath_ok.mpr chosen]
        simp only [readable, invalid, Except.mapError, bind, Except.bind]

theorem Chooses.consults (chosen : process.Chooses cliPath (some path)) :
    process.Consults cliPath path := by
  cases chosen with
  | given named _ => exact .given named
  | usual unnamed places absent _ => exact .usual unnamed places absent

/-- A search depends on what it looks at alone. -/
theorem find?_congr_consulted {places : List PathBuf} {first second : PathBuf → Bool}
    (agree : ∀ before path after, places = before ++ path :: after →
      (∀ other ∈ before, first other = false) → second path = first path) :
    places.find? second = places.find? first := by
  induction places with
  | nil => rfl
  | cons path rest ih =>
      have same := agree [] path rest rfl (by simp)
      cases found : first path with
      | true => rw [List.find?_cons_of_pos (by rw [same, found]), List.find?_cons_of_pos found]
      | false =>
          rw [List.find?_cons_of_neg (by rw [same, found]; exact Bool.false_ne_true),
            List.find?_cons_of_neg (by rw [found]; exact Bool.false_ne_true)]
          refine ih fun before later after split absent => ?_
          refine agree (path :: before) later after (by rw [split, List.cons_append]) ?_
          simpa [found] using absent

theorem discoverPath_congr {other : Process} (vars : other.varOs = process.varOs)
    (files : ∀ path, process.Consults cliPath path → other.isFile path = process.isFile path) :
    other.discoverPath cliPath = process.discoverPath cliPath := by
  have asked : other.given cliPath = process.given cliPath := by rw [given, vars, given]
  cases named : process.given cliPath with
  | some path =>
      rw [discoverPath_given named, discoverPath_given (asked.trans named),
        files path (.given named)]
  | none =>
      have places : other.candidates = process.candidates := by
        rw [candidates, xdgConfigDir, vars, candidates, xdgConfigDir]
      rw [discoverPath_usual named, discoverPath_usual (asked.trans named), places,
        find?_congr_consulted fun before path after split absent =>
          files path (.usual named split absent)]

/-- Files that are not looked at do not matter. -/
theorem load_congr {other : Process} (vars : other.varOs = process.varOs)
    (files : ∀ path, process.Consults cliPath path → other.isFile path = process.isFile path ∧
      other.readToString path = process.readToString path) :
    other.load crates cliPath = process.load crates cliPath := by
  have names : other.var = process.var := by
    funext name
    rw [var, vars, var]
  rw [load, load, discoverPath_congr vars fun path consulted => (files path consulted).1, names]
  cases found : process.discoverPath cliPath with
  | error => rfl
  | ok source =>
      cases source with
      | none => rfl
      | some path =>
          have chosen := discoverPath_ok.mp found
          simp only [bind, Except.bind, (files path chosen.consults).2]

/-- The same file, and the same configuration in another walk of its maps. -/
def LoadedAlike (first second : Config × Option PathBuf) : Prop :=
  first.1.Rewalked second.1 ∧ second.2 = first.2

theorem load_rewalked {tomlFromStr : String → Except TomlError Config}
    (rewalks : crates.Rewalks tomlFromStr) : ExceptRel LoadError.Alike LoadedAlike
      (process.load crates cliPath) (process.load { crates with tomlFromStr } cliPath) := by
  have found : ExceptRel LoadError.Alike Eq (process.discoverPath cliPath)
      (process.discoverPath cliPath) := .refl .same (fun _ => rfl) _
  refine found.bind fun source other same => ?_
  subst same
  cases source with
  | none => exact .ok ⟨.refl _, rfl⟩
  | some path =>
      have read : ExceptRel LoadError.Alike Eq ((process.readToString path).mapError (.read path))
          ((process.readToString path).mapError (.read path)) := .refl .same (fun _ => rfl) _
      refine read.bind fun text other same => ?_
      subst same
      have accepted : ExceptRel LoadError.Alike Config.Rewalked
          ((Config.fromToml crates process.var text).mapError .document)
          ((Config.fromToml { crates with tomlFromStr } process.var text).mapError .document) :=
        (Config.fromToml_rewalked rewalks).mapError fun _ _ alike => .document alike
      exact accepted.bind fun config other walked => .ok ⟨walked, rfl⟩

theorem Configures.validated (configured : process.Configures crates cliPath config source) :
    Config.Validated crates config := by
  cases configured with
  | file _ _ accepted => exact Config.fromToml_validated accepted
  | defaults => exact Config.validate_ok (Config.validate_default crates)

end Process

end GlancesRs
