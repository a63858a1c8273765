import GlancesRs.Linux.Mounts

namespace GlancesRs

open Data

/-! Which mount tables are read back as they are. The words of a line end at
every Unicode blank, and the kernel escapes two of them. -/

/-- Mount point and options of an entry when its names are cut at the blanks the
kernel leaves: the columns move up or down by the pieces. -/
def MountEntry.cut (entry : MountEntry) : List Char × List Char :=
  match strayWords entry.device ++ strayWords entry.path with
  | [] => (unescapeMount entry.options, Nat.toDigits 10 entry.pass)
  | [_] => (unescapeMount entry.fstype, Nat.toDigits 10 entry.dump)
  | [_, second] => (second, entry.options)
  | [_, second, _] => (second, entry.fstype)
  | _ :: second :: _ :: fourth :: _ => (second, escapeWith mangled fourth)

def Uncut (name : List Char) : Prop := ∀ c ∈ name, strayBlank c = false

/-- A name is one word of the line when its blanks stand at its ends. -/
def OnePiece (name : List Char) : Prop :=
  ∃ before piece after, name = before ++ piece ++ after ∧ piece ≠ [] ∧ Uncut piece ∧
    (∀ c ∈ before, strayBlank c = true) ∧ ∀ c ∈ after, strayBlank c = true

/-- The mount point and the options of the entry stand in their columns, the mount
point whole. -/
structure MountEntry.InPlace (entry : MountEntry) : Prop where
  device : OnePiece entry.device
  path : Uncut entry.path

/-- The columns of an entry's line but the options. -/
def MountEntry.others (entry : MountEntry) : List (List Char) :=
  (strayWords entry.device ++ strayWords entry.path).map (escapeWith mangled) ++
    [entry.fstype, Nat.toDigits 10 entry.dump, Nat.toDigits 10 entry.pass]

/-- No path is mounted twice, and no options read like another column. -/
structure Apart (entries : List MountEntry) : Prop where
  paths : (entries.map MountEntry.path).Nodup
  options : ∀ entry ∈ entries, ∀ other ∈ entries, entry.options ∉ other.others

variable {entry : MountEntry} {entries : List MountEntry} {name : List Char}

theorem unescapeMount_mangled (name : List Char) :
    unescapeMount (escapeWith mangled name) = name :=
  unescapeMount_escapeWith (fun _ => mangled_ascii) (by decide) name

theorem mountOption_line :
    mountOption entry.line = some (.ofList entry.cut.1, .ofList entry.cut.2) := by
  rw [mountOption, splitWhitespace_line, MountEntry.columns, MountEntry.cut]
  rcases strayWords entry.device ++ strayWords entry.path with
    _ | ⟨first, _ | ⟨second, _ | ⟨third, _ | ⟨fourth, rest⟩⟩⟩⟩
  · rfl
  · rfl
  · simp [unescapeMount_mangled]
  · simp [unescapeMount_mangled]
  · simp [unescapeMount_mangled]

theorem ofList_eq_iff {path : String} : String.ofList name = path ↔ name = path.toList := by
  rw [← String.toList_inj, String.toList_ofList]

theorem lookup_parseMountOptions {path : String} :
    (parseMountOptions (renderMounts entries)).lookup path =
      (entries.reverse.find? fun entry => entry.cut.1 = path.toList).map
        fun entry => .ofList entry.cut.2 := by
  have read : (entries.map MountEntry.line).filterMap mountOption =
      entries.map fun entry => (String.ofList entry.cut.1, String.ofList entry.cut.2) := by
    rw [List.filterMap_map, ← List.filterMap_eq_map]
    exact List.filterMap_congr fun entry _ => mountOption_line
  rw [parseMountOptions, lines_renderMounts, read, AList.lookup_collect_map]
  simp only [ofList_eq_iff]

theorem optionsAt_eq {path : String} : optionsAt entries path =
    ((entries.reverse.find? fun entry => entry.path = path.toList).map MountEntry.options).map
      .ofList := by
  simp only [optionsAt, MountEntry.mountPoint, ofList_eq_iff, Option.map_map]
  rfl

section Pieces

variable {mark c : Char} {piece before after rest : List Char}

theorem strayWords_append (blank : strayBlank mark = true) :
    strayWords (before ++ mark :: after) = strayWords before ++ strayWords after := by
  rw [strayWords, List.splitOnP_append_cons before after blank, List.filter_append]
  rfl

theorem strayWords_cons (blank : strayBlank c = true) : strayWords (c :: rest) = strayWords rest :=
  @strayWords_append c [] rest blank

theorem strayWords_uncut (uncut : Uncut name) (nonempty : name ≠ []) :
    strayWords name = [name] := by
  rw [strayWords, List.splitOnP_eq_singleton uncut]
  simp [nonempty]

theorem strayWords_eq_nil_iff : strayWords name = [] ↔ ∀ c ∈ name, strayBlank c = true := by
  induction name with
  | nil => simp [strayWords]
  | cons c name ih =>
      cases blank : strayBlank c with
      | true => simp [strayWords_cons blank, ih, blank]
      | false =>
          obtain ⟨first, more, pieces⟩ :=
            List.exists_cons_of_ne_nil (List.splitOnP_ne_nil strayBlank name)
          have kept : strayWords (c :: name) ≠ [] := by
            rw [strayWords, List.splitOnP_cons_eq_if_modifyHead, blank, pieces]
            simp
          simp [kept, blank]

/-- No piece of a name has a blank at which it was cut. -/
theorem uncut_of_mem (listed : piece ∈ strayWords name) : Uncut piece := by
  have apart : ∀ {name piece : List Char}, piece ∈ name.splitOnP strayBlank → Uncut piece := by
    intro name
    induction name with
    | nil => simp [Uncut]
    | cons c name ih =>
        intro piece listed
        rw [List.splitOnP_cons_eq_if_modifyHead] at listed
        split at listed
        · rcases List.mem_cons.mp listed with rfl | later
          · simp [Uncut]
          · exact ih later
        · rename_i kept
          obtain ⟨first, more, pieces⟩ :=
            List.exists_cons_of_ne_nil (List.splitOnP_ne_nil strayBlank name)
          rw [pieces, List.modifyHead_cons] at listed
          rcases List.mem_cons.mp listed with rfl | later
          · refine List.forall_mem_cons.mpr ⟨by simpa using kept, ih ?_⟩
            simp [pieces]
          · exact ih (by simp [pieces, later])
  exact apart (List.mem_of_mem_filter listed)

theorem onePiece_iff : OnePiece name ↔ ∃ piece, strayWords name = [piece] := by
  constructor
  · intro whole
    obtain ⟨before, piece, after, rfl, nonempty, uncut, leading, trailing⟩ := whole
    refine ⟨piece, ?_⟩
    induction before with
    | nil =>
        cases after with
        | nil => simpa using strayWords_uncut uncut nonempty
        | cons c after =>
            obtain ⟨blank, blanks⟩ := List.forall_mem_cons.mp trailing
            rw [List.nil_append, strayWords_append blank, strayWords_uncut uncut nonempty,
              strayWords_eq_nil_iff.mpr blanks, List.append_nil]
    | cons c before ih =>
        obtain ⟨blank, blanks⟩ := List.forall_mem_cons.mp leading
        rw [List.cons_append, List.cons_append, strayWords_cons blank]
        exact ih blanks
  · intro single
    obtain ⟨piece, single⟩ := single
    induction name with
    | nil => simp [strayWords] at single
    | cons c name ih =>
        cases blank : strayBlank c with
        | true =>
            rw [strayWords_cons blank] at single
            obtain ⟨before, piece, after, rfl, nonempty, uncut, leading, trailing⟩ := ih single
            exact ⟨c :: before, piece, after, rfl, nonempty, uncut,
              List.forall_mem_cons.mpr ⟨blank, leading⟩, trailing⟩
        | false =>
            -- The piece runs to the next blank, and nothing but blanks follows.
            have ends := List.takeWhile_append_dropWhile (p := fun c => !strayBlank c) (l := name)
            have solid : Uncut (c :: name.takeWhile fun c => !strayBlank c) := by
              refine List.forall_mem_cons.mpr ⟨blank, fun d inside => ?_⟩
              have kept := List.all_eq_true.mp (List.all_takeWhile (l := name)) d inside
              simpa using kept
            cases left : name.dropWhile fun c => !strayBlank c with
            | nil =>
                rw [left, List.append_nil] at ends
                rw [ends] at solid
                exact ⟨[], c :: name, [], by simp, by simp, solid, by simp, by simp⟩
            | cons d rest =>
                have stops : strayBlank d = true := by
                  have head := List.head?_dropWhile_not (fun c => !strayBlank c) name
                  rw [left] at head
                  simpa using head
                rw [left] at ends
                rw [← ends, ← List.cons_append, strayWords_append stops,
                  strayWords_uncut solid (by simp), List.singleton_append, List.cons.injEq] at single
                refine ⟨[], c :: name.takeWhile fun c => !strayBlank c, d :: rest, ?_, by simp, solid,
                  by simp, List.forall_mem_cons.mpr ⟨stops, strayWords_eq_nil_iff.mp single.2⟩⟩
                rw [List.nil_append, List.cons_append, ends]

end Pieces

theorem MountEntry.InPlace.cut (inPlace : entry.InPlace) : entry.cut = (entry.path, entry.options) := by
  obtain ⟨piece, device⟩ := onePiece_iff.mp inPlace.device
  rw [MountEntry.cut, device, strayWords_uncut inPlace.path entry.path_nonempty]
  rfl

/-- What is read as the options of an entry are its options only when its names are
two words. -/
theorem MountEntry.cut_options {options : List Char} (read : entry.cut.2 = options)
    (apart : options ∉ entry.others) :
    ∃ first second, strayWords entry.device ++ strayWords entry.path = [first, second] ∧
      entry.cut.1 = second := by
  rw [MountEntry.others] at apart
  rw [MountEntry.cut] at read ⊢
  generalize strayWords entry.device ++ strayWords entry.path = words at apart read ⊢
  rcases words with _ | ⟨first, _ | ⟨second, _ | ⟨third, _ | ⟨fourth, rest⟩⟩⟩⟩
  · simp [← read] at apart
  · simp [← read] at apart
  · exact ⟨first, second, rfl, rfl⟩
  · simp [← read] at apart
  · simp [← read] at apart

/-- The table is read back. -/
def ReadBack (entries : List MountEntry) : Prop :=
  ∀ path, (parseMountOptions (renderMounts entries)).lookup path = optionsAt entries path

theorem readBack_of_inPlace (inPlace : ∀ entry ∈ entries, entry.InPlace) : ReadBack entries := by
  intro path
  rw [lookup_parseMountOptions, optionsAt_eq]
  have whole : ∀ entry ∈ entries.reverse, entry.cut = (entry.path, entry.options) :=
    fun entry inside => (inPlace entry (List.mem_reverse.mp inside)).cut
  generalize entries.reverse = table at whole
  induction table with
  | nil => rfl
  | cons entry rest ih =>
      have head := whole entry List.mem_cons_self
      have tail := ih fun other inside => whole other (List.mem_cons_of_mem _ inside)
      by_cases same : entry.path = path.toList
      · simp [head, same]
      · simpa [List.find?_cons, head, same] using tail

section Apart

variable {other : MountEntry}

theorem Apart.unique (apart : Apart entries) (inside : entry ∈ entries) (listed : other ∈ entries)
    (same : entry.path = other.path) : entry = other :=
  List.inj_on_of_nodup_map apart.paths inside listed same

/-- Where no columns can be taken for each other, some entry of two words is read at
every path. -/
theorem Apart.read (apart : Apart entries) (readBack : ReadBack entries) (inside : entry ∈ entries) :
    ∃ other ∈ entries, ∃ first,
      strayWords other.device ++ strayWords other.path = [first, entry.path] := by
  have mounted : (entries.reverse.find? fun other => other.path = entry.path) = some entry := by
    cases found : entries.reverse.find? fun other => other.path = entry.path with
    | none =>
        have missed := List.find?_eq_none.mp found entry (List.mem_reverse.mpr inside)
        simp at missed
    | some other =>
        have same : other.path = entry.path := by simpa using List.find?_some found
        have listed := List.mem_reverse.mp (List.mem_of_find?_eq_some found)
        rw [apart.unique listed inside same]
  have read := readBack (.ofList entry.path)
  rw [lookup_parseMountOptions, optionsAt_eq, String.toList_ofList, mounted] at read
  obtain ⟨other, found, options⟩ := Option.map_eq_some_iff.mp read
  have listed := List.mem_reverse.mp (List.mem_of_find?_eq_some found)
  have shown : other.cut.2 = entry.options := String.ofList_injective options
  obtain ⟨first, second, words, named⟩ :=
    MountEntry.cut_options shown (apart.options entry inside other listed)
  have same : other.cut.1 = entry.path := by simpa using List.find?_some found
  exact ⟨other, listed, first, by rw [words, ← named, same]⟩

theorem Apart.inPlace (apart : Apart entries) (readBack : ReadBack entries) :
    ∀ entry ∈ entries, entry.InPlace := by
  have paths : ∀ entry ∈ entries, Uncut entry.path := by
    intro entry inside
    obtain ⟨other, _, first, words⟩ := apart.read readBack inside
    have piece : entry.path ∈ strayWords other.device ++ strayWords other.path := by simp [words]
    exact (List.mem_append.mp piece).elim uncut_of_mem uncut_of_mem
  intro entry inside
  obtain ⟨other, listed, first, words⟩ := apart.read readBack inside
  -- The path of the entry read there is a word, so it is the second.
  have path := strayWords_uncut (paths other listed) other.path_nonempty
  have pair : [first, entry.path] = [first] ++ [entry.path] := rfl
  rw [path, pair, List.append_singleton_inj] at words
  obtain ⟨device, same⟩ := words
  have alone := apart.unique inside listed same.symm
  subst alone
  exact ⟨onePiece_iff.mpr ⟨first, device⟩, paths entry inside⟩

end Apart

/-- The table is read back when its names are not cut, and only then where no
options could be mistaken for another column or another mount. -/
theorem mountTable_iff (entries : List MountEntry) :
    ((∀ entry ∈ entries, entry.InPlace) → ReadBack entries) ∧
      (Apart entries → (ReadBack entries ↔ ∀ entry ∈ entries, entry.InPlace)) :=
  ⟨readBack_of_inPlace, fun apart => ⟨apart.inPlace, readBack_of_inPlace⟩⟩

/-- A filesystem mounted at a path with a no-break space. -/
def noBreakSpaceMount : MountEntry where
  device := "/dev/sdb1".toList
  path := "/mnt/a\u00a0b".toList
  fstype := "ext4".toList
  options := "ro,noatime".toList
  dump := 0
  pass := 0
  device_nonempty := by decide +kernel
  path_nonempty := by decide +kernel
  fstype_nonempty := by decide +kernel
  options_nonempty := by decide +kernel
  fstype_solid := solid_of_any (by decide +kernel)
  options_solid := solid_of_any (by decide +kernel)

/-- It is read as a mount at `/mnt/a` whose options are the file system. -/
theorem noBreakSpaceMount_moved :
    (parseMountOptions (renderMounts [noBreakSpaceMount])).lookup "/mnt/a\u00a0b" = none ∧
      (parseMountOptions (renderMounts [noBreakSpaceMount])).lookup "/mnt/a" = some "ext4" ∧
      ¬ ReadBack [noBreakSpaceMount] := by
  have unread : (parseMountOptions (renderMounts [noBreakSpaceMount])).lookup "/mnt/a\u00a0b" =
      none := by
    decide +kernel
  have mounted : optionsAt [noBreakSpaceMount] "/mnt/a\u00a0b" = some "ro,noatime" := by
    decide +kernel
  refine ⟨unread, by decide +kernel, fun readBack => ?_⟩
  rw [readBack, mounted] at unread
  cases unread

end GlancesRs
