import GlancesRs.Data.Folds
import GlancesRs.Linux.Diskstats
import GlancesRs.Linux.Interfaces
import GlancesRs.Linux.Meminfo
import GlancesRs.Plugins.CpuShares

namespace GlancesRs

open Data

/-! Which contents of `/proc` and `/sys` the parsers take without overflow, and
the shares of memory and swap they then report as used. -/

section Used

/-- The percentage in exact arithmetic, before it is rounded. -/
def exactUsedPercent (used total : UInt64) : ℚ :=
  usedPercent (fun bytes => (bytes.toNat : ℚ)) id used total

/-- `used` is what is left of `total`, and its percentage is one. -/
structure UsedOf (total other used : UInt64) : Prop where
  clamped : (used.toNat : ℤ) = max 0 ((total.toNat : ℤ) - other.toNat)
  percent : 0 ≤ exactUsedPercent used total ∧ exactUsedPercent used total ≤ 100

variable {total other : UInt64}

theorem usedOf_saturatingSub : UsedOf total other (saturatingSubU64 total other) := by
  have left := saturatingSubU64_toNat total other
  constructor
  · omega
  · by_cases none : total = 0
    · simp [exactUsedPercent, usedPercent, none]
    · have positive : 0 < total.toNat := by
        apply Nat.pos_of_ne_zero
        intro zero
        exact none (UInt64.toNat_inj.mp zero)
      have share : exactUsedPercent (saturatingSubU64 total other) total =
          shareOf total.toNat (saturatingSubU64 total other).toNat := by
        rw [exactUsedPercent, usedPercent, if_neg none]
        rfl
      rw [share]
      exact shareOf_bounded positive (by omega)

end Used

section Meminfo

variable {content : List (List Char)} {kv : HashMap (List Char) UInt64} {value : UInt64}

/-- A number of kibibytes that is a number of bytes. -/
def FitsKib (value : UInt64) : Prop := value.toNat < 2 ^ 54

theorem mulU64_kib : mulU64 value 1024 = if value.toNat < 2 ^ 54 then some (value * 1024) else none := by
  have kib : (1024 : UInt64).toNat = 1024 := rfl
  rw [mulU64, kib]
  by_cases fits : value.toNat < 2 ^ 54
  · rw [if_pos fits, if_pos (by omega)]
  · rw [if_neg fits, if_neg (by omega)]

theorem insertEntry_isSome {line : List Char} : (insertEntry kv line).isSome ↔
    ∀ entry, memEntry line = some entry → FitsKib entry.2 := by
  cases read : memEntry line with
  | none => simp [insertEntry, read]
  | some entry => simp [insertEntry, read, mulU64_kib, FitsKib]

/-- After any lines: for each key the bytes of its last number. -/
theorem foldlM_insertEntry {after : HashMap (List Char) UInt64}
    (ran : content.foldlM insertEntry kv = some after) (key : List Char) : after.lookup key =
      (((content.filterMap memEntry).reverse.lookup key).map (· * 1024)).or (kv.lookup key) := by
  induction content generalizing kv with
  | nil =>
      cases ran
      simp
  | cons line content ih =>
      obtain ⟨next, inserted, rest⟩ := foldlM_cons_eq_some.mp ran
      rw [ih rest]
      cases read : memEntry line with
      | none =>
          rw [insertEntry, read] at inserted
          cases inserted
          rw [List.filterMap_cons_none read]
      | some entry =>
          obtain ⟨name, value⟩ := entry
          have fits : value.toNat < 2 ^ 54 :=
            insertEntry_isSome.mp (Option.isSome_of_eq_some inserted) _ read
          rw [insertEntry, read] at inserted
          simp only [mulU64_kib, if_pos fits] at inserted
          cases inserted
          rw [List.filterMap_cons_some read, List.reverse_cons, List.lookup_append, Option.map_or,
            Option.or_assoc]
          by_cases same : key = name
          · subst same
            simp
          · simp [List.lookup_cons, same, beq_eq_false_iff_ne.mpr same]

/-- The last number of a key, 0 without one. -/
def lastKib (content : List Char) (key : String) : UInt64 :=
  (((lines content).filterMap memEntry).reverse.lookup key.toList).getD 0

/-- Every number is one of bytes, and so is the sum that makes `cached`. -/
def MeminfoFits (content : List Char) : Prop :=
  (∀ entry ∈ (lines content).filterMap memEntry, FitsKib entry.2) ∧
    (lastKib content "Cached").toNat + (lastKib content "SReclaimable").toNat < 2 ^ 54

variable {file : List Char}

/-- The bytes of a key, where its numbers fit. -/
theorem figure_toNat {key : String} (fits : ∀ entry ∈ (lines file).filterMap memEntry, FitsKib entry.2)
    (found : kv.lookup key.toList =
      (((lines file).filterMap memEntry).reverse.lookup key.toList).map (· * 1024)) :
    (figure kv key).toNat = (lastKib file key).toNat * 1024 := by
  rw [figure, lastKib, found]
  cases last : ((lines file).filterMap memEntry).reverse.lookup key.toList with
  | none => rfl
  | some value =>
      obtain ⟨before, after, split, _⟩ := List.lookup_eq_some_iff.mp last
      have listed : (key.toList, value) ∈ (lines file).filterMap memEntry := by
        rw [← List.mem_reverse, split]
        simp
      have small : value.toNat < 2 ^ 54 := fits _ listed
      have kib : (1024 : UInt64).toNat = 1024 := rfl
      rw [Option.map_some, Option.getD_some, Option.getD_some, UInt64.toNat_mul, kib]
      exact Nat.mod_eq_of_lt (by omega)

theorem parseMeminfo_isSome : (parseMeminfo file).isSome ↔ MeminfoFits file := by
  have reads := @foldlM_isSome_iff _ _ _ insertEntry memEntry (fun entry => FitsKib entry.2) ∅
    (lines file) fun _ _ => insertEntry_isSome
  rw [parseMeminfo, MeminfoFits, ← reads]
  cases ran : (lines file).foldlM insertEntry ∅ with
  | none => simp
  | some kv =>
      rw [ran] at reads
      have bytes : ∀ key : String, (figure kv key).toNat = (lastKib file key).toNat * 1024 := by
        intro key
        apply figure_toNat (reads.mp rfl)
        rw [foldlM_insertEntry ran, AList.lookup_empty, Option.or_none]
      have added := @addU64_isSome (figure kv "Cached") (figure kv "SReclaimable")
      rw [bytes, bytes] at added
      have through : (some kv).isSome = true := rfl
      rw [Option.bind_eq_bind, Option.bind_some, Option.bind_eq_bind, and_iff_right through]
      cases sum : addU64 (figure kv "Cached") (figure kv "SReclaimable") with
      | none =>
          rw [sum] at added
          have beyond := mt added.mpr Bool.false_ne_true
          exact iff_of_false Bool.false_ne_true (by omega)
      | some cached =>
          rw [sum] at added
          have within := added.mp rfl
          exact iff_of_true rfl (by omega)

theorem parseMeminfo_used {info : MemInfo} (parsed : parseMeminfo file = some info) :
    UsedOf info.total info.available info.used := by
  rw [parseMeminfo] at parsed
  obtain ⟨kv, _, rest⟩ := Option.bind_eq_some_iff.mp parsed
  obtain ⟨cached, _, made⟩ := Option.bind_eq_some_iff.mp rest
  cases made
  exact usedOf_saturatingSub

end Meminfo

section Swap

/-- The numbers of the two swap keys are numbers of bytes. -/
def SwapFits (content : List Char) : Prop :=
  ∀ entry ∈ (lines content).filterMap memEntry,
    entry.1 = "SwapTotal".toList ∨ entry.1 = "SwapFree".toList → FitsKib entry.2

variable {swap : UInt64 × UInt64}

theorem swapEntry_isSome {line : List Char} : (swapEntry swap line).isSome ↔
    ∀ entry, memEntry line = some entry →
      entry.1 = "SwapTotal".toList ∨ entry.1 = "SwapFree".toList → FitsKib entry.2 := by
  cases read : memEntry line with
  | none => simp [swapEntry, read]
  | some entry =>
      obtain ⟨key, value⟩ := entry
      rw [swapEntry, read]
      simp only [Option.some.injEq, forall_eq', FitsKib]
      split
      · rename_i total
        simp [total, mulU64_kib]
      split
      · rename_i free
        simp [free, mulU64_kib]
      · rename_i total free
        exact iff_of_true rfl fun named => (named.elim total free).elim

theorem parseSwap_isSome {meminfo vmstat : List Char} {pageSize : UInt64} :
    (parseSwap meminfo vmstat pageSize).isSome ↔ SwapFits meminfo := by
  have reads := @foldlM_isSome_iff _ _ _ swapEntry memEntry
    (fun entry => entry.1 = "SwapTotal".toList ∨ entry.1 = "SwapFree".toList → FitsKib entry.2) (0, 0)
    (lines meminfo) fun _ _ => swapEntry_isSome
  rw [SwapFits, ← reads, parseSwap]
  cases (lines meminfo).foldlM swapEntry (0, 0) with
  | none => rfl
  | some swap => exact iff_of_true rfl rfl

theorem parseSwap_used {meminfo vmstat : List Char} {pageSize : UInt64} {info : SwapInfo}
    (parsed : parseSwap meminfo vmstat pageSize = some info) :
    UsedOf info.total info.free info.used := by
  rw [parseSwap] at parsed
  obtain ⟨swap, _, made⟩ := Option.bind_eq_some_iff.mp parsed
  cases made
  exact usedOf_saturatingSub

end Swap

section Link

/-- `mbps * 1_048_576` is below `2 ^ 64`. -/
def LinkFits (speed : Option (List Char)) : Prop := (linkMbps speed).toNat < 2 ^ 44

variable {flags speed : Option (List Char)}

/-- The capacity is the smaller product of the two. -/
theorem readIfaceMeta_isSome : (readIfaceMeta flags speed).isSome ↔ LinkFits speed := by
  have bits := @mulU64_isSome (linkMbps speed) 1048576
  have bytes := @mulU64_isSome (linkMbps speed) 1000000
  have mebi : (1048576 : UInt64).toNat = 1048576 := by decide +kernel
  have mega : (1000000 : UInt64).toNat = 1000000 := by decide +kernel
  rw [mebi] at bits
  rw [mega] at bytes
  rw [readIfaceMeta, LinkFits, speedCapacityBytesPerDir]
  cases speeds : mulU64 (linkMbps speed) 1048576 with
  | none =>
      rw [speeds] at bits
      have beyond := mt bits.mpr Bool.false_ne_true
      exact iff_of_false Bool.false_ne_true (by omega)
  | some product =>
      rw [speeds] at bits
      have within := bits.mp rfl
      have smaller : (linkMbps speed).toNat * 1000000 < 2 ^ 64 :=
        Nat.lt_of_le_of_lt (Nat.mul_le_mul_left _ (by decide)) within
      obtain ⟨capacity, known⟩ := Option.isSome_iff_exists.mp (bytes.mpr smaller)
      rw [known]
      exact iff_of_true rfl (by omega)

end Link

/-- What the parsers are given: the files of `/proc`, and those of an interface
that can be read. -/
structure ProcContents where
  meminfo : List Char
  swapMeminfo : List Char
  vmstat : List Char
  pageSize : UInt64
  diskstats : List Char
  flags : Option (List Char)
  speed : Option (List Char)

/-- No operator overflows, and what is reported as used is. -/
structure NoOverflow (files : ProcContents) : Prop where
  memory : ∃ info, parseMeminfo files.meminfo = some info ∧
    UsedOf info.total info.available info.used
  swap : ∃ info, parseSwap files.swapMeminfo files.vmstat files.pageSize = some info ∧
    UsedOf info.total info.free info.used
  disks : ∀ f ∈ diskLines files.diskstats,
    (diskCounters f).readBytes.toNat = min ((columnAt parseU64 0 f 5).toNat * 512) (2 ^ 64 - 1) ∧
    (diskCounters f).writeBytes.toNat = min ((columnAt parseU64 0 f 9).toNat * 512) (2 ^ 64 - 1)
  link : (readIfaceMeta files.flags files.speed).isSome

/-- The plain products overflow from `2 ^ 54` KiB and `2 ^ 44` Mbps on, `cached`
where its two parts do together; the saturating ones never. -/
theorem noOverflow_iff (files : ProcContents) : NoOverflow files ↔
    MeminfoFits files.meminfo ∧ SwapFits files.swapMeminfo ∧ LinkFits files.speed := by
  rw [← parseMeminfo_isSome, ← @parseSwap_isSome _ files.vmstat files.pageSize,
    ← @readIfaceMeta_isSome files.flags]
  constructor
  · intro sound
    obtain ⟨info, memory, _⟩ := sound.memory
    obtain ⟨swap, swapped, _⟩ := sound.swap
    exact ⟨by rw [memory]; rfl, by rw [swapped]; rfl, sound.link⟩
  · intro parsed
    obtain ⟨memory, swap, link⟩ := parsed
    obtain ⟨info, memory⟩ := Option.isSome_iff_exists.mp memory
    obtain ⟨swapInfo, swap⟩ := Option.isSome_iff_exists.mp swap
    refine ⟨⟨info, memory, parseMeminfo_used memory⟩, ⟨swapInfo, swap, parseSwap_used swap⟩, ?_, link⟩
    intro f _
    exact ⟨saturatingMulU64_toNat _ _, saturatingMulU64_toNat _ _⟩

/-- `2 ^ 54` KiB of memory, or `2 ^ 44` Mbps of link speed. -/
def hugeFiles : ProcContents where
  meminfo := "MemTotal: 18014398509481984 kB\n".toList
  swapMeminfo := "SwapTotal: 18014398509481984 kB\n".toList
  vmstat := []
  pageSize := 4096
  diskstats := []
  flags := none
  speed := some "17592186044416\n".toList

theorem hugeFiles_overflow :
    parseMeminfo hugeFiles.meminfo = none ∧
      parseSwap hugeFiles.swapMeminfo hugeFiles.vmstat hugeFiles.pageSize = none ∧
      readIfaceMeta hugeFiles.flags hugeFiles.speed = none ∧ ¬ NoOverflow hugeFiles := by
  have memory : parseMeminfo hugeFiles.meminfo = none :=
    Option.isNone_iff_eq_none.mp (by decide +kernel)
  have swap : parseSwap hugeFiles.swapMeminfo hugeFiles.vmstat hugeFiles.pageSize = none :=
    Option.isNone_iff_eq_none.mp (by decide +kernel)
  have link : readIfaceMeta hugeFiles.flags hugeFiles.speed = none :=
    Option.isNone_iff_eq_none.mp (by decide +kernel)
  refine ⟨memory, swap, link, fun sound => ?_⟩
  obtain ⟨info, parsed, _⟩ := sound.memory
  rw [memory] at parsed
  cases parsed

end GlancesRs
