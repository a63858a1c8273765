import GlancesRs.Linux.Diskstats
import GlancesRs.Linux.ProcStat

namespace GlancesRs

open Data

/-! Whose column a counter is read from. `/proc/diskstats` is read by index;
`/proc/stat` drops the tokens that do not parse, so one bad token moves the
counters behind it. -/

/-- Every jiffy field has the value of its own column of the last `cpu` line. -/
def StatAligned (content : List Char) : Prop :=
  ∀ s, parseProcStat content = some s → ∃ tokens, (cpuLines content).getLast? = some tokens ∧
    s.jiffyFields = (List.range 10).map fun j => columnAt parseU64 0 tokens j

/-- Every counter has the value of its column of the last line naming the disk. -/
def DisksAligned (content : List Char) : Prop :=
  ∀ name counters, (parseDiskstats content).lookup name = some counters →
    ∃ f, (diskLines content).reverse.find? (fun f => diskName f = name) = some f ∧
      counters.readCount = columnAt parseU64 0 f 3 ∧
      counters.writeCount = columnAt parseU64 0 f 7 ∧
      counters.readBytes = saturatingMulU64 (columnAt parseU64 0 f 5) 512 ∧
      counters.writeBytes = saturatingMulU64 (columnAt parseU64 0 f 9) 512 ∧
      counters.readTime = columnAt parseU64 0 f 6 ∧
      counters.writeTime = columnAt parseU64 0 f 10

/-- Where every `cpu` line has four numbers, those that a bad token of the last
one moves into its ten columns are all zero. -/
def MovesZeros (content : List Char) : Prop :=
  (∀ tokens ∈ cpuLines content, Complete tokens) →
    ∀ tokens, (cpuLines content).getLast? = some tokens →
      ∀ value ∈ movedValues parseU64 10 tokens, value = 0

variable {content : List Char} {tokens : List (List Char)}

theorem disksAligned : DisksAligned content := by
  intro name counters found
  rw [lookup_parseDiskstats, Option.map_eq_some_iff] at found
  obtain ⟨f, last, rfl⟩ := found
  exact ⟨f, last, rfl, rfl, rfl, rfl, rfl, rfl⟩

theorem compactColumns_eq_iff :
    compactColumns tokens = ((List.range 10).map fun j => columnAt parseU64 0 tokens j) ↔
      ∀ value ∈ movedValues parseU64 10 tokens, value = 0 := by
  rw [← compact_aligned_iff, compactColumns, List.map_inj_left]
  simp only [List.mem_range]

theorem statAligned_iff : StatAligned content ↔ MovesZeros content := by
  constructor
  · intro aligned completes tokens last
    obtain ⟨s, parsed⟩ := parseProcStat_exists completes last
    obtain ⟨own, found, fields⟩ := aligned s parsed
    obtain ⟨_, other, foundOther, compact⟩ := parseProcStat_spec parsed
    rw [last] at found foundOther
    cases found
    cases foundOther
    exact compactColumns_eq_iff.mp (compact.symm.trans fields)
  · intro zeros s parsed
    obtain ⟨completes, tokens, last, compact⟩ := parseProcStat_spec parsed
    exact ⟨tokens, last, compact.trans (compactColumns_eq_iff.mpr (zeros completes tokens last))⟩

/-- The columns of `/proc/diskstats` never move, those of `/proc/stat` by nothing
but zeros exactly where `MovesZeros` says so. -/
theorem counterColumns_iff (stat disks : List Char) :
    StatAligned stat ∧ DisksAligned disks ↔ MovesZeros stat := by
  rw [statAligned_iff]
  exact and_iff_left disksAligned

/-- A `cpu` line whose second column is no number. -/
def malformedNice : List Char := "cpu 990 x 4260 214257 735 0 15 1 5 0\n".toList

/-- `system` jiffies are read as `nice` and `idle` jiffies as `system`. -/
theorem malformedNice_moved :
    (parseProcStat malformedNice).map CpuSample.jiffyFields =
        some [990, 4260, 214257, 735, 0, 15, 1, 5, 0, 0] ∧
      ¬ (StatAligned malformedNice ∧ DisksAligned []) := by
  have read : (parseProcStat malformedNice).map CpuSample.jiffyFields =
      some [990, 4260, 214257, 735, 0, 15, 1, 5, 0, 0] := by
    decide +kernel
  refine ⟨read, fun both => ?_⟩
  obtain ⟨s, parsed, fields⟩ := Option.map_eq_some_iff.mp read
  obtain ⟨tokens, last, columns⟩ := both.1 s parsed
  have line : (cpuLines malformedNice).getLast? =
      some ("990 x 4260 214257 735 0 15 1 5 0".toList.splitOn ' ') := by
    decide +kernel
  rw [line] at last
  cases last
  rw [fields] at columns
  exact absurd columns (by decide +kernel)

end GlancesRs
