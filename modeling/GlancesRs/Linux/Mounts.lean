import GlancesRs.Config.Model
import GlancesRs.Data.KeyedMap
import GlancesRs.Data.Words
import GlancesRs.Linux.MountEscapes

namespace GlancesRs

open Data

/-! The mount table: what the kernel writes to `/proc/self/mounts`, and the
options by mount point that are read back. -/

/-- Mount point and options of a line: the columns are device, mount point, file
system, options and two numbers. -/
def mountOption (line : List Char) : Option (String × String) := do
  let columns := splitWhitespace line
  let mnt ← columns[1]?
  let opts ← columns[3]?
  return (.ofList (unescapeMount mnt), .ofList opts)

def parseMountOptions (content : List Char) : HashMap String String :=
  .collect ((lines content).filterMap mountOption)

/-- The characters the kernel escapes in devices and paths. -/
def mangled (c : Char) : Bool := c = ' ' || c = '\t' || c = '\n' || c = '\\'

structure MountEntry where
  device : List Char
  path : List Char
  fstype : List Char
  options : List Char
  dump : ℕ
  pass : ℕ
  device_nonempty : device ≠ []
  path_nonempty : path ≠ []
  fstype_nonempty : fstype ≠ []
  options_nonempty : options ≠ []
  fstype_solid : ∀ c ∈ fstype, isWhitespace c = false
  options_solid : ∀ c ∈ options, isWhitespace c = false

namespace MountEntry

variable (entry : MountEntry)

def line : List Char :=
  escapeWith mangled entry.device ++ ' ' :: (escapeWith mangled entry.path ++ ' ' ::
    (entry.fstype ++ ' ' :: (entry.options ++ ' ' ::
      (Nat.toDigits 10 entry.dump ++ ' ' :: Nat.toDigits 10 entry.pass))))

def mountPoint : String := .ofList entry.path

def mountedWith : String := .ofList entry.options

end MountEntry

def renderMounts (entries : List MountEntry) : List Char :=
  entries.flatMap fun entry => entry.line ++ ['\n']

/-- The options of the last entry mounted at a path. -/
def optionsAt (entries : List MountEntry) (path : String) : Option String :=
  (entries.reverse.find? fun entry => entry.mountPoint = path).map MountEntry.mountedWith

section Columns

/-- A blank the kernel leaves as it is. -/
def strayBlank (c : Char) : Bool := isWhitespace c && !mangled c

/-- The pieces of a name between such blanks. -/
def strayWords (name : List Char) : List (List Char) :=
  (name.splitOnP strayBlank).filter (· ≠ [])

/-- The columns of an entry's line, cut also at the blanks inside the names. -/
def MountEntry.columns (entry : MountEntry) : List (List Char) :=
  (strayWords entry.device ++ strayWords entry.path).map (escapeWith mangled) ++
    [entry.fstype, entry.options, Nat.toDigits 10 entry.dump, Nat.toDigits 10 entry.pass]

variable {entry : MountEntry} {entries : List MountEntry} {name block rest : List Char} {c : Char}

theorem octalEscape_solid (ascii : c.toNat < 128) : ∀ d ∈ octalEscape c, isWhitespace d = false := by
  have digits : ∀ digit, digit < 8 → isWhitespace (Nat.digitChar digit) = false := by
    intro digit inside
    interval_cases digit <;> decide
  intro d inside
  simp only [octalEscape, List.mem_cons, List.not_mem_nil, or_false] at inside
  rcases inside with rfl | rfl | rfl | rfl
  · decide
  · exact digits _ (by omega)
  · exact digits _ (by omega)
  · exact digits _ (by omega)

theorem mangled_ascii (special : mangled c = true) : c.toNat < 128 := by
  simp only [mangled, Bool.or_eq_true, decide_eq_true_eq] at special
  rcases special with ((rfl | rfl) | rfl) | rfl <;> decide

/-- How one character of a name is written. -/
theorem escaped_solid (kept : strayBlank c = false) :
    ∀ d ∈ (if mangled c then octalEscape c else [c]), isWhitespace d = false := by
  intro d inside
  by_cases special : mangled c = true
  · rw [if_pos special] at inside
    exact octalEscape_solid (mangled_ascii special) d inside
  · rw [if_neg special, List.mem_singleton] at inside
    subst inside
    rw [strayBlank, Bool.and_eq_false_iff] at kept
    rcases kept with solid | mangles
    · exact solid
    · simp [special] at mangles

theorem splitOnP_solid (solid : ∀ c ∈ block, isWhitespace c = false) :
    (block ++ rest).splitOnP isWhitespace = (rest.splitOnP isWhitespace).modifyHead (block ++ ·) := by
  induction block with
  | nil =>
      have unchanged : List.modifyHead (fun line : List Char => line) = id := List.modifyHead_id
      rw [List.nil_append]
      exact (congrFun unchanged _).symm
  | cons c block ih =>
      have head := solid c List.mem_cons_self
      have tail := ih fun d inside => solid d (List.mem_cons_of_mem _ inside)
      rw [List.cons_append, List.splitOnP_cons_eq_if_modifyHead, if_neg (by simp [head]), tail,
        List.modifyHead_modifyHead]
      rfl

/-- The words of an escaped name are its pieces, escaped. -/
theorem splitOnP_escapeWith : (escapeWith mangled name).splitOnP isWhitespace =
    (name.splitOnP strayBlank).map (escapeWith mangled) := by
  induction name with
  | nil => rfl
  | cons c name ih =>
      rw [escapeWith, List.flatMap_cons, ← escapeWith]
      cases stray : strayBlank c with
      | true =>
          have parts : isWhitespace c = true ∧ mangled c = false := by
            simpa [strayBlank] using stray
          have kept : (if mangled c then octalEscape c else [c]) = [c] := if_neg (by simp [parts])
          rw [kept, List.singleton_append, List.splitOnP_cons_eq_if_modifyHead, if_pos parts.1, ih,
            List.splitOnP_cons_eq_if_modifyHead, if_pos stray]
          rfl
      | false =>
          have pieces : (c :: name).splitOnP strayBlank =
              (name.splitOnP strayBlank).modifyHead (c :: ·) := by
            rw [List.splitOnP_cons_eq_if_modifyHead, stray]
            rfl
          rw [splitOnP_solid (escaped_solid stray), ih, pieces]
          cases name.splitOnP strayBlank with
          | nil => rfl
          | cons first more => rfl

theorem escapeWith_ne_nil : escapeWith mangled name ≠ [] ↔ name ≠ [] := by
  cases name with
  | nil => simp [escapeWith]
  | cons c name =>
      have written : (if mangled c then octalEscape c else [c]) ≠ [] := by
        split <;> simp [octalEscape]
      simp [escapeWith, written]

theorem splitWhitespace_escapeWith :
    splitWhitespace (escapeWith mangled name) = (strayWords name).map (escapeWith mangled) := by
  rw [splitWhitespace, splitOnP_escapeWith, strayWords, List.filter_map]
  congr 1
  refine List.filter_congr fun piece _ => ?_
  simpa using not_iff_not.mp (@escapeWith_ne_nil piece)

theorem toDigits_solid {n : ℕ} : ∀ c ∈ Nat.toDigits 10 n, isWhitespace c = false :=
  fun _ inside =>
    isWhitespace_of_isDigit (Nat.isDigit_of_mem_toDigits (by decide) (by decide) inside)

theorem splitWhitespace_toDigits (n : ℕ) :
    splitWhitespace (Nat.toDigits 10 n) = [Nat.toDigits 10 n] :=
  splitWhitespace_word Nat.toDigits_ne_nil toDigits_solid

theorem splitWhitespace_line : splitWhitespace entry.line = entry.columns := by
  have blank : isWhitespace ' ' = true := by decide
  have fstype := splitWhitespace_word entry.fstype_nonempty entry.fstype_solid
  have options := splitWhitespace_word entry.options_nonempty entry.options_solid
  rw [MountEntry.line, splitWhitespace_append blank, splitWhitespace_append blank,
    splitWhitespace_append blank, splitWhitespace_append blank, splitWhitespace_append blank,
    splitWhitespace_escapeWith, splitWhitespace_escapeWith, fstype, options,
    splitWhitespace_toDigits, splitWhitespace_toDigits, MountEntry.columns, List.map_append]
  simp

theorem newline_notMem_escapeWith : '\n' ∉ escapeWith mangled name := by
  intro broken
  obtain ⟨c, _, inside⟩ := List.mem_flatMap.mp broken
  by_cases special : mangled c = true
  · rw [if_pos special] at inside
    exact absurd (octalEscape_solid (mangled_ascii special) _ inside) (by decide)
  · rw [if_neg special, List.mem_singleton] at inside
    subst inside
    exact special (by decide)

/-- One line an entry. -/
theorem lines_renderMounts : lines (renderMounts entries) = entries.map MountEntry.line := by
  induction entries with
  | nil => rfl
  | cons entry entries ih =>
      have newline : ∀ {text : List Char}, (∀ c ∈ text, isWhitespace c = false) → '\n' ∉ text :=
        fun solid broken => absurd (solid _ broken) (by decide)
      have unbroken : '\n' ∉ entry.line := by
        simp [MountEntry.line, newline_notMem_escapeWith, newline entry.fstype_solid,
          newline entry.options_solid, newline toDigits_solid]
      obtain ⟨front, shape⟩ : ∃ front, entry.line = front ++ Nat.toDigits 10 entry.pass :=
        ⟨escapeWith mangled entry.device ++ ' ' :: (escapeWith mangled entry.path ++ ' ' ::
          (entry.fstype ++ ' ' :: (entry.options ++ ' ' :: (Nat.toDigits 10 entry.dump ++ [' '])))),
          by simp [MountEntry.line]⟩
      have ended : entry.line.getLast? ≠ some '\r' := by
        rw [shape, List.getLast?_append_of_ne_nil _ Nat.toDigits_ne_nil]
        intro last
        exact absurd (toDigits_solid _ (List.mem_of_getLast? last)) (by decide)
      rw [renderMounts, List.flatMap_cons, ← renderMounts, List.append_assoc, List.singleton_append,
        lines_append_newline unbroken ended, ih, List.map_cons]

end Columns

end GlancesRs
