import GlancesRs.Config.Model
import GlancesRs.Data.Utf8
import Mathlib.Data.List.Induction

namespace GlancesRs

open Data

/-! The command line: three options, any number of times and in any order, up to the
first argument that is no text. -/

/-- The bytes of a name, as on Unix. -/
structure PathBuf where
  bytes : List UInt8
deriving DecidableEq

namespace PathBuf

def ofString (text : String) : PathBuf := ⟨utf8Bytes text.toList⟩

def slash : UInt8 := 47

/-- `Path::join`: an absolute `file` takes the place of `dir`. -/
def join (dir file : PathBuf) : PathBuf :=
  if file.bytes.head? = some slash then file
  else if dir.bytes.getLast?.all (· = slash) then ⟨dir.bytes ++ file.bytes⟩
  else ⟨dir.bytes ++ slash :: file.bytes⟩

/-- `Path::display`. -/
def display (path : PathBuf) : String := .ofList (decodeLossy path.bytes)

end PathBuf

structure CliArgs where
  config : Option PathBuf := none
  help : Bool := false
  version : Bool := false
deriving DecidableEq

/-- What is left of `--config=PATH` after the sign, if `arg` is of that form. -/
def joinedPath (arg : String) : Option String :=
  if "--config=".toList.isPrefixOf arg.toList then
    some (.ofList (arg.toList.drop "--config=".toList.length))
  else none

/-- An iterator over texts: what it yields, and whether it panics after that. -/
structure Args where
  texts : List String
  panics : Bool := false

/-- `std::env::args`: it panics at the first argument that is not valid UTF-8. -/
def envArgs : List (List UInt8) → Args
  | [] => { texts := [] }
  | raw :: rest =>
      match fromUtf8 raw with
      | some chars => { envArgs rest with texts := .ofList chars :: (envArgs rest).texts }
      | none => { texts := [], panics := true }

theorem envArgs_panics {argv : List (List UInt8)} :
    (envArgs argv).panics = true ↔ ∃ raw ∈ argv, fromUtf8 raw = none := by
  induction argv with
  | nil => simp [envArgs]
  | cons raw rest ih =>
      rw [envArgs]
      cases read : fromUtf8 raw with
      | none => simp [read]
      | some chars => simp [read, ih]

/-- `Iterator::skip`; what is skipped is read all the same. -/
def Args.skip (args : Args) (n : ℕ) : Args := { args with texts := args.texts.drop n }

/-- `None` is a panic of the iterator. -/
def parseArgsFrom (panics : Bool) (out : CliArgs) : List String → Option (Except String CliArgs)
  | [] => if panics then none else some (.ok out)
  | arg :: rest =>
      if arg = "-c" ∨ arg = "--config" then
        match rest with
        | [] => if panics then none else some (.error "--config requires a path")
        | path :: rest => parseArgsFrom panics { out with config := some (.ofString path) } rest
      else
        match joinedPath arg with
        | some path => parseArgsFrom panics { out with config := some (.ofString path) } rest
        | none =>
            if arg = "-h" ∨ arg = "--help" then parseArgsFrom panics { out with help := true } rest
            else if arg = "-V" ∨ arg = "--version" then
              parseArgsFrom panics { out with version := true } rest
            else some (.error s!"unknown argument: {arg} (try --help)")

def parseArgs (args : Args) : Option (Except String CliArgs) := parseArgsFrom args.panics {} args.texts

/-- What one option asks for. -/
inductive CliOption where
  | config (path : PathBuf)
  | help
  | version
deriving DecidableEq

def CliOption.path? : CliOption → Option PathBuf
  | .config path => some path
  | _ => none

/-- The arguments an option may be written as. -/
inductive Spells : List String → CliOption → Prop where
  | separate {name : String} (path : String) (named : name = "-c" ∨ name = "--config") :
      Spells [name, path] (.config (.ofString path))
  | joined (path : String) : Spells ["--config=" ++ path] (.config (.ofString path))
  | help {name : String} (named : name = "-h" ∨ name = "--help") : Spells [name] .help
  | version {name : String} (named : name = "-V" ∨ name = "--version") : Spells [name] .version

inductive SpellsAll : List String → List CliOption → Prop where
  | nil : SpellsAll [] []
  | cons {words rest : List String} {option : CliOption} {options : List CliOption}
      (first : Spells words option) (others : SpellsAll rest options) :
      SpellsAll (words ++ rest) (option :: options)

/-- The last path given counts; the flags count wherever they stand. -/
def asked (options : List CliOption) : CliArgs where
  config := (options.filterMap CliOption.path?).getLast?
  help := decide (.help ∈ options)
  version := decide (.version ∈ options)

/-- No option starts with this argument. -/
def NoOption (arg : String) : Prop :=
  arg ≠ "-c" ∧ arg ≠ "--config" ∧ (∀ path, arg ≠ "--config=" ++ path) ∧
    arg ≠ "-h" ∧ arg ≠ "--help" ∧ arg ≠ "-V" ∧ arg ≠ "--version"

/-- Where the options end and how they go wrong there. -/
inductive Misspelled (panics : Bool) : List String → String → Prop where
  | pathless {name : String} (named : name = "-c" ∨ name = "--config") (ends : panics = false) :
      Misspelled panics [name] "--config requires a path"
  | unknown {arg : String} (rest : List String) (none_ : NoOption arg) :
      Misspelled panics (arg :: rest) s!"unknown argument: {arg} (try --help)"
  | later {words rest : List String} {option : CliOption} {message : String}
      (first : Spells words option) (others : Misspelled panics rest message) :
      Misspelled panics (words ++ rest) message

/-- More is asked of the iterator after these texts. -/
inductive CutShort : List String → Prop where
  | nil : CutShort []
  | path {name : String} (named : name = "-c" ∨ name = "--config") : CutShort [name]
  | later {words rest : List String} {option : CliOption} (first : Spells words option)
      (others : CutShort rest) : CutShort (words ++ rest)

/-- One option more on top of what is already read. -/
def CliArgs.take (out : CliArgs) : CliOption → CliArgs
  | .config path => { out with config := some path }
  | .help => { out with help := true }
  | .version => { out with version := true }

variable {args words rest : List String} {option : CliOption} {options : List CliOption}
variable {out parsed : CliArgs} {arg message path : String} {panics : Bool} {line : Args}

theorem joinedPath_eq_some : joinedPath arg = some path ↔ arg = "--config=" ++ path := by
  rw [joinedPath]
  constructor
  · intro found
    split at found
    · rename_i start
      obtain ⟨tail, split⟩ := List.isPrefixOf_iff_prefix.mp start
      rw [← split, List.drop_left, Option.some.injEq] at found
      rw [← String.toList_inj, String.toList_append, ← split, ← found]
      exact congrArg _ String.toList_ofList.symm
    · cases found
  · intro joined
    subst joined
    rw [String.toList_append, if_pos (List.isPrefixOf_iff_prefix.mpr ⟨_, rfl⟩), List.drop_left,
      String.ofList_toList]

theorem joinedPath_eq_none : joinedPath arg = none ↔ ∀ path, arg ≠ "--config=" ++ path := by
  rw [Option.eq_none_iff_forall_ne_some]
  exact forall_congr' fun path => not_congr joinedPath_eq_some

theorem joined_ne (path : String) :
    ¬ ("--config=" ++ path = "-c" ∨ "--config=" ++ path = "--config") := by
  simp [← String.toList_inj, String.toList_append]

theorem joinedPath_short : joinedPath "-h" = none ∧ joinedPath "--help" = none ∧
    joinedPath "-V" = none ∧ joinedPath "--version" = none := by
  decide

/-- The whole command line is read an option at a time. -/
theorem parseArgsFrom_spells (spelled : Spells words option) :
    parseArgsFrom panics out (words ++ rest) = parseArgsFrom panics (out.take option) rest := by
  cases spelled with
  | separate path named =>
      rw [parseArgsFrom.eq_def]
      simp only [List.cons_append, List.nil_append, if_pos named]
      rfl
  | joined path =>
      have joined : joinedPath ("--config=" ++ path) = some path := joinedPath_eq_some.mpr rfl
      rw [parseArgsFrom.eq_def]
      simp only [List.cons_append, List.nil_append, if_neg (joined_ne path), joined]
      rfl
  | help named =>
      rw [parseArgsFrom.eq_def]
      rcases named with rfl | rfl <;> simp [joinedPath_short, CliArgs.take]
  | version named =>
      rw [parseArgsFrom.eq_def]
      rcases named with rfl | rfl <;> simp [joinedPath_short, CliArgs.take]

/-- The first argument begins an option, or is where the line goes wrong. -/
theorem option_or_wrong (arg : String) (rest : List String) :
    (∃ words option more, Spells words option ∧ arg :: rest = words ++ more) ∨
      ((arg = "-c" ∨ arg = "--config") ∧ rest = []) ∨ NoOption arg := by
  by_cases separate : arg = "-c" ∨ arg = "--config"
  · cases rest with
    | nil => exact .inr (.inl ⟨separate, rfl⟩)
    | cons path more => exact .inl ⟨_, _, more, .separate path separate, rfl⟩
  · cases joined : joinedPath arg with
    | some path =>
        obtain rfl := joinedPath_eq_some.mp joined
        exact .inl ⟨_, _, rest, .joined path, rfl⟩
    | none =>
        by_cases help : arg = "-h" ∨ arg = "--help"
        · exact .inl ⟨_, _, rest, .help help, rfl⟩
        · by_cases version : arg = "-V" ∨ arg = "--version"
          · exact .inl ⟨_, _, rest, .version version, rfl⟩
          · rw [not_or] at separate help version
            exact .inr (.inr ⟨separate.1, separate.2, joinedPath_eq_none.mp joined, help.1, help.2,
              version.1, version.2⟩)

theorem parseArgsFrom_pathless (named : arg = "-c" ∨ arg = "--config") :
    parseArgsFrom panics out [arg] =
      if panics then none else some (.error "--config requires a path") := by
  rw [parseArgsFrom.eq_def]
  simp only [if_pos named]

theorem parseArgsFrom_unknown (none_ : NoOption arg) :
    parseArgsFrom panics out (arg :: rest) =
      some (.error s!"unknown argument: {arg} (try --help)") := by
  obtain ⟨short, long, joined, h, help, v, version⟩ := none_
  rw [parseArgsFrom.eq_def]
  simp only [joinedPath_eq_none.mpr joined, short, long, h, help, v, version, or_self, if_false]

theorem parseArgsFrom_spellsAll (spelled : SpellsAll words options) :
    parseArgsFrom panics out (words ++ rest) =
      parseArgsFrom panics (options.foldl CliArgs.take out) rest := by
  induction spelled generalizing out with
  | nil => rfl
  | cons first _ ih => rw [List.append_assoc, parseArgsFrom_spells first, ih, List.foldl_cons]

theorem parseArgsFrom_misspelled (wrong : Misspelled panics args message) :
    parseArgsFrom panics out args = some (.error message) := by
  induction wrong generalizing out with
  | pathless named ends => simp [parseArgsFrom_pathless named, ends]
  | unknown rest none_ => exact parseArgsFrom_unknown none_
  | later first _ ih => rw [parseArgsFrom_spells first, ih]

theorem parseArgsFrom_cutShort (short : CutShort args) : parseArgsFrom true out args = none := by
  induction short generalizing out with
  | nil => rfl
  | path named => simp [parseArgsFrom_pathless named]
  | later first _ ih => rw [parseArgsFrom_spells first, ih]

/-- Every command line is a spelling of options, goes wrong somewhere, or is cut short by
an argument that is no text. -/
theorem line_cases (panics : Bool) (args : List String) :
    (panics = false ∧ ∃ options, SpellsAll args options) ∨
      (∃ message, Misspelled panics args message) ∨ panics = true ∧ CutShort args := by
  generalize measured : args.length = size
  induction size using Nat.strong_induction_on generalizing args with
  | _ size ih =>
      cases args with
      | nil =>
          cases panics with
          | false => exact .inl ⟨rfl, [], .nil⟩
          | true => exact .inr (.inr ⟨rfl, .nil⟩)
      | cons arg rest =>
          rcases option_or_wrong arg rest with
            ⟨words, option, more, first, split⟩ | ⟨named, rfl⟩ | none_
          · have shorter : more.length < size := by
              have lengths := congrArg List.length split
              cases first <;> simp_all <;> omega
            rw [split]
            rcases ih more.length shorter more rfl with
              ⟨ends, options, others⟩ | ⟨message, others⟩ | ⟨cut, others⟩
            · exact .inl ⟨ends, _, .cons first others⟩
            · exact .inr (.inl ⟨message, .later first others⟩)
            · exact .inr (.inr ⟨cut, .later first others⟩)
          · cases panics with
            | false => exact .inr (.inl ⟨_, .pathless named rfl⟩)
            | true => exact .inr (.inr ⟨rfl, .path named⟩)
          · exact .inr (.inl ⟨_, .unknown rest none_⟩)

theorem foldl_take : options.foldl CliArgs.take {} = asked options := by
  induction options using List.reverseRecOn with
  | nil => rfl
  | append_singleton options option ih =>
      rw [List.foldl_append, ih]
      cases option <;> simp [asked, CliArgs.take, CliOption.path?, List.filterMap_append]

theorem parseArgs_spelled (ends : line.panics = false) (spelled : SpellsAll line.texts options) :
    parseArgs line = some (.ok (asked options)) := by
  have read : parseArgsFrom line.panics {} (line.texts ++ []) =
      parseArgsFrom line.panics (options.foldl CliArgs.take {}) [] := parseArgsFrom_spellsAll spelled
  rw [List.append_nil, foldl_take, ends] at read
  rw [parseArgs, ends]
  exact read

theorem parseArgs_misspelled (wrong : Misspelled line.panics line.texts message) :
    parseArgs line = some (.error message) :=
  parseArgsFrom_misspelled wrong

theorem parseArgs_cutShort (cut : line.panics = true) (short : CutShort line.texts) :
    parseArgs line = none := by
  rw [parseArgs, cut]
  exact parseArgsFrom_cutShort short

theorem parseArgs_ok : parseArgs line = some (.ok parsed) ↔
    line.panics = false ∧ ∃ options, SpellsAll line.texts options ∧ parsed = asked options := by
  constructor
  · intro read
    rcases line_cases line.panics line.texts with
      ⟨ends, options, spelled⟩ | ⟨message, wrong⟩ | ⟨cut, short⟩
    · rw [parseArgs_spelled ends spelled, Option.some.injEq, Except.ok.injEq] at read
      exact ⟨ends, options, spelled, read.symm⟩
    · cases (parseArgs_misspelled wrong).symm.trans read
    · cases (parseArgs_cutShort cut short).symm.trans read
  · intro parts
    obtain ⟨ends, options, spelled, rfl⟩ := parts
    exact parseArgs_spelled ends spelled

example : parseArgs { texts := ["-c", "--help", "--config=", "-V"] } =
    some (.ok { config := some (.ofString ""), version := true }) := by
  rfl

theorem parseArgs_error : parseArgs line = some (.error message) ↔
    Misspelled line.panics line.texts message := by
  constructor
  · intro read
    rcases line_cases line.panics line.texts with
      ⟨ends, options, spelled⟩ | ⟨other, wrong⟩ | ⟨cut, short⟩
    · cases (parseArgs_spelled ends spelled).symm.trans read
    · rw [parseArgs_misspelled wrong, Option.some.injEq, Except.error.injEq] at read
      exact read ▸ wrong
    · cases (parseArgs_cutShort cut short).symm.trans read
  · exact parseArgs_misspelled

/-- The parser panics where it asks for the argument that is no text. -/
theorem parseArgs_none : parseArgs line = none ↔ line.panics = true ∧ CutShort line.texts := by
  constructor
  · intro read
    rcases line_cases line.panics line.texts with ⟨ends, options, spelled⟩ | ⟨other, wrong⟩ | short
    · cases (parseArgs_spelled ends spelled).symm.trans read
    · cases (parseArgs_misspelled wrong).symm.trans read
    · exact short
  · intro parts
    exact parseArgs_cutShort parts.1 parts.2

end GlancesRs
