import GlancesRs.Data.Layout
import GlancesRs.Linux.Diskstats
import GlancesRs.Linux.Overflow
import GlancesRs.Linux.ProcStat

namespace GlancesRs

open Data

/-! What the kernel writes under `/proc` is what is read back: whatever the blanks,
the order of the lines and the lines of no interest. -/

section Rows

/-- The words after a name. -/
def tokensOf (name : List Char) (row : List (List Char)) : Option (List (List Char)) :=
  if row.head? = some name then some row.tail else none

/-- A count is the first number of the only line of its name. It is 0 where the kernel
has no such line. -/
inductive Counted (rows : List (List (List Char))) (name : String) : UInt64 → Prop where
  | shown {count : UInt64} {more : List (List Char)}
      (only : rows.filterMap (tokensOf name.toList) = [decimal count :: more]) :
      Counted rows name count
  | absent (none_ : rows.filterMap (tokensOf name.toList) = []) : Counted rows name 0

variable {text : List Char} {rows : List (List (List Char))} {name : String} {count : UInt64}

theorem nextU64_decimal (more : List (List Char)) : nextU64 (decimal count :: more) = count := by
  rw [nextU64, List.head?_cons, Option.bind_some, parseU64_decimal, Option.getD_some]

theorem Counted.last (counted : Counted rows name count) :
    (rows.filterMap fun row => (tokensOf name.toList row).map nextU64).getLast?.getD 0 = count := by
  have split : (rows.filterMap fun row => (tokensOf name.toList row).map nextU64) =
      (rows.filterMap (tokensOf name.toList)).map nextU64 := by
    rw [List.map_filterMap]
  rw [split]
  cases counted with
  | shown only =>
      rw [only, List.map_singleton, nextU64_decimal]
      rfl
  | absent none_ =>
      rw [none_]
      rfl

/-- What is read of the words of each line is read of the rows. -/
theorem filterMap_lines {β : Type} {read : List (List Char) → Option β}
    (written : LinesOf Laid text rows) :
    ((lines text).filterMap fun line => read (splitWhitespace line)) = rows.filterMap read := by
  have words : (lines text).map splitWhitespace = rows :=
    map_lines_linesOf (fun _ _ laid => splitWhitespace_laid laid) written
  rw [← words, List.filterMap_map]
  rfl

end Rows

section Stat

/-- The rows of `/proc/stat` for a sample. The one `cpu` line has at least four
columns; the sample is 0 where the kernel has fewer than ten. -/
structure StatRows (rows : List (List (List Char))) (s : CpuSample) : Prop where
  jiffies : ∃ columns : List UInt64, 4 ≤ columns.length ∧
    rows.filterMap (tokensOf "cpu".toList) = [columns.map decimal] ∧
    s.jiffyFields = (List.range 10).map fun j => columns[j]?.getD 0
  ctxt : Counted rows "ctxt" s.ctxt
  intr : Counted rows "intr" s.intr
  softirq : Counted rows "softirq" s.softirqTotal

variable {content line : List Char} {rows : List (List (List Char))} {s after : CpuSample}
variable {state next : CpuSample × Bool} {tokens : List (List Char)}

theorem cpuTokens_eq : cpuTokens line = tokensOf "cpu".toList (splitWhitespace line) := by
  rw [cpuTokens, tokensOf]
  cases splitWhitespace line with
  | nil => rfl
  | cons name rest => simp

theorem cpuLine_counts (read : cpuLine s tokens = some after) :
    after.ctxt = s.ctxt ∧ after.intr = s.intr ∧ after.softirqTotal = s.softirqTotal := by
  simp only [cpuLine, Option.bind_eq_bind, Option.bind_eq_some_iff] at read
  obtain ⟨_, _, _, _, _, _, _, _, made⟩ := read
  cases made
  exact ⟨rfl, rfl, rfl⟩

/-- One line sets one count at most. -/
theorem statLine_counts (stepped : statLine state line = some next) :
    next.1.ctxt = ((tokensOf "ctxt".toList (splitWhitespace line)).map nextU64).getD state.1.ctxt ∧
    next.1.intr = ((tokensOf "intr".toList (splitWhitespace line)).map nextU64).getD state.1.intr ∧
    next.1.softirqTotal = ((tokensOf "softirq".toList (splitWhitespace line)).map nextU64).getD
      state.1.softirqTotal := by
  rw [statLine] at stepped
  cases words : splitWhitespace line with
  | nil =>
      rw [words] at stepped
      cases stepped
      exact ⟨rfl, rfl, rfl⟩
  | cons name tokens =>
      rw [words] at stepped
      simp only at stepped
      split at stepped
      · rename_i cpu
        obtain ⟨after, read, rfl⟩ := Option.map_eq_some_iff.mp stepped
        subst cpu
        exact cpuLine_counts read
      split at stepped
      · rename_i ctxt
        subst ctxt
        cases stepped
        exact ⟨rfl, rfl, rfl⟩
      split at stepped
      · rename_i intr
        subst intr
        cases stepped
        exact ⟨rfl, rfl, rfl⟩
      split at stepped
      · rename_i softirq
        subst softirq
        cases stepped
        exact ⟨rfl, rfl, rfl⟩
      · rename_i cpu ctxt intr softirq
        cases stepped
        simp [tokensOf, ctxt, intr, softirq]

theorem CpuSample.ext_counts (jiffies : s.jiffyFields = after.jiffyFields)
    (ctxt : s.ctxt = after.ctxt) (intr : s.intr = after.intr)
    (softirq : s.softirqTotal = after.softirqTotal) : s = after := by
  cases s
  cases after
  simp_all [jiffyFields]

/-- The columns of a line of numbers are the numbers. -/
theorem compactColumns_decimal (columns : List UInt64) :
    compactColumns (columns.map decimal) = (List.range 10).map fun j => columns[j]?.getD 0 := by
  simp only [compactColumns, compactAt, filterMap_decimal]

theorem parseProcStat_written (written : LinesOf Laid content rows) (told : StatRows rows s) :
    parseProcStat content = some s := by
  obtain ⟨columns, enough, only, fields⟩ := told.jiffies
  have cpu : cpuLines content = [columns.map decimal] := by
    rw [cpuLines, ← only, ← filterMap_lines written]
    exact List.filterMap_congr fun line _ => cpuTokens_eq
  have complete : ∀ tokens ∈ cpuLines content, Complete tokens := by
    intro tokens member
    rw [cpu, List.mem_singleton] at member
    rw [Complete, member, filterMap_decimal]
    exact enough
  obtain ⟨read, parsed⟩ := parseProcStat_exists complete (by rw [cpu]; rfl)
  obtain ⟨_, tokens, last, jiffies⟩ := parseProcStat_spec parsed
  rw [cpu, List.getLast?_singleton, Option.some.injEq] at last
  rw [← last, compactColumns_decimal, ← fields] at jiffies
  have ran := parsed
  rw [parseProcStat] at ran
  obtain ⟨⟨final, seen⟩, ran, kept⟩ := Option.bind_eq_some_iff.mp ran
  have same : final = read := by
    simp only at kept
    split at kept
    · exact Option.some.inj kept
    · cases kept
  have counts : ∀ (name : String) (get : CpuSample × Bool → UInt64),
      (∀ state line next, statLine state line = some next → get next =
        ((tokensOf name.toList (splitWhitespace line)).map nextU64).getD (get state)) →
      get (final, seen) = ((rows.filterMap fun row =>
        (tokensOf name.toList row).map nextU64).getLast?).getD (get (.zero, false)) := by
    intro name get steps
    rw [foldlM_last steps ran, ← filterMap_lines written]
  have ctxt := counts "ctxt" (fun state => state.1.ctxt) fun _ _ _ stepped =>
    (statLine_counts stepped).1
  have intr := counts "intr" (fun state => state.1.intr) fun _ _ _ stepped =>
    (statLine_counts stepped).2.1
  have softirq := counts "softirq" (fun state => state.1.softirqTotal) fun _ _ _ stepped =>
    (statLine_counts stepped).2.2
  rw [parsed, Option.some.injEq, ← same]
  exact CpuSample.ext_counts (same ▸ jiffies) (ctxt.trans told.ctxt.last)
    (intr.trans told.intr.last) (softirq.trans told.softirq.last)

end Stat

section Disks

/-- A line of `/proc/diskstats`: two numbers of the device, its name and its
statistics, of which the newer kernels have more than eleven. -/
structure DiskRow where
  major : List Char
  minor : List Char
  name : List Char
  stats : List UInt64
  enough : 11 ≤ stats.length

def DiskRow.row (disk : DiskRow) : List (List Char) :=
  disk.major :: disk.minor :: disk.name :: disk.stats.map decimal

def DiskRow.stat (disk : DiskRow) (j : ℕ) : UInt64 := disk.stats[j]?.getD 0

/-- Reads, sectors read, their time, and the same of writes; a sector is 512 bytes. -/
structure DiskIoCounters.Tells (counters : DiskIoCounters) (disk : DiskRow) : Prop where
  readCount : counters.readCount = disk.stat 0
  readBytes : counters.readBytes.toNat = min ((disk.stat 2).toNat * 512) (2 ^ 64 - 1)
  readTime : counters.readTime = disk.stat 3
  writeCount : counters.writeCount = disk.stat 4
  writeBytes : counters.writeBytes.toNat = min ((disk.stat 6).toNat * 512) (2 ^ 64 - 1)
  writeTime : counters.writeTime = disk.stat 7

variable {content : List Char} {rows : List (List (List Char))} {disks : List DiskRow}
variable {disk : DiskRow}

theorem columnAt_row (j : ℕ) : columnAt parseU64 0 disk.row (j + 3) = disk.stat j := by
  rw [columnAt, DiskRow.row, DiskRow.stat]
  simp only [List.getElem?_cons_succ, List.getElem?_map]
  cases disk.stats[j]? with
  | none => rfl
  | some n => rw [Option.map_some, Option.bind_some, parseU64_decimal]

theorem diskCounters_tells : (diskCounters disk.row).Tells disk := by
  have sector : (512 : UInt64).toNat = 512 := rfl
  refine ⟨columnAt_row 0, ?_, columnAt_row 3, columnAt_row 4, ?_, columnAt_row 7⟩
  · simp only [diskCounters]
    rw [saturatingMulU64_toNat, columnAt_row 2, sector]
  · simp only [diskCounters]
    rw [saturatingMulU64_toNat, columnAt_row 6, sector]

/-- The last line of a disk counts; a line with too few columns is no disk. -/
theorem parseDiskstats_written (written : LinesOf Laid content rows)
    (told : rows.filter (fun row => 14 ≤ row.length) = disks.map DiskRow.row) (name : String) :
    Option.Rel DiskIoCounters.Tells ((parseDiskstats content).lookup name)
      (disks.reverse.find? fun disk => String.ofList disk.name = name) := by
  have found : diskLines content = disks.map DiskRow.row := by
    rw [diskLines, map_lines_linesOf (fun _ _ laid => splitWhitespace_laid laid) written, told]
  rw [lookup_parseDiskstats, found, ← List.map_reverse, List.find?_map]
  have named : ((fun f => decide (diskName f = name)) ∘ DiskRow.row) =
      fun disk => decide (String.ofList disk.name = name) := rfl
  rw [named]
  cases disks.reverse.find? fun disk => String.ofList disk.name = name with
  | none => exact .none
  | some disk => exact .some diskCounters_tells

end Disks

section Memory

/-- A line such as `MemTotal:       16461176 kB`. -/
inductive ShowsEntry : List Char → List Char × UInt64 → Prop where
  | entry {key rest : List Char} {value : UInt64} {more : List (List Char)} (plain : ':' ∉ key)
      (laid : Laid rest (decimal value :: more)) : ShowsEntry (key ++ ':' :: rest) (key, value)

/-- The kibibytes last shown for a key, 0 without one. -/
def kibibytes (entries : List (List Char × UInt64)) (key : String) : ℕ :=
  ((entries.reverse.lookup key.toList).getD 0).toNat

/-- Every figure in bytes; kernels that do not estimate what is available are taken
at what is free. -/
structure MemInfo.Tells (info : MemInfo) (entries : List (List Char × UInt64)) : Prop where
  total : info.total.toNat = kibibytes entries "MemTotal" * 1024
  free : info.free.toNat = kibibytes entries "MemFree" * 1024
  available : info.available.toNat = 1024 *
    if "MemAvailable".toList ∈ entries.map Prod.fst then kibibytes entries "MemAvailable"
    else kibibytes entries "MemFree"
  buffers : info.buffers.toNat = kibibytes entries "Buffers" * 1024
  cached : info.cached.toNat =
    (kibibytes entries "Cached" + kibibytes entries "SReclaimable") * 1024
  active : info.active.toNat = kibibytes entries "Active" * 1024
  inactive : info.inactive.toNat = kibibytes entries "Inactive" * 1024
  shared : info.shared.toNat = kibibytes entries "Shmem" * 1024
  slab : info.slab.toNat = kibibytes entries "Slab" * 1024
  used : info.used.toNat = info.total.toNat - info.available.toNat
  percent : info.percent = usedPercent UInt64.toFloat round1 info.used info.total

variable {content : List Char} {entries : List (List Char × UInt64)}

theorem memEntry_shown {line : List Char} {entry : List Char × UInt64}
    (shown : ShowsEntry line entry) : memEntry line = some entry := by
  cases shown with
  | entry plain laid =>
      rw [memEntry, splitOnce_eq_some.mpr ⟨rfl, plain⟩]
      simp only [Option.bind_eq_bind, Option.bind_some, splitWhitespace_laid laid, List.head?_cons,
        parseU64_decimal]
      rfl

theorem mem_keys_iff {key : List Char} :
    (entries.reverse.lookup key).isSome ↔ key ∈ entries.map Prod.fst := by
  rw [List.lookup_isSome_iff]
  constructor
  · intro found
    obtain ⟨entry, member, same⟩ := found
    exact List.mem_map.mpr ⟨entry, List.mem_reverse.mp member, (eq_of_beq same).symm⟩
  · intro keyed
    obtain ⟨entry, member, rfl⟩ := List.mem_map.mp keyed
    exact ⟨entry, List.mem_reverse.mpr member, beq_self_eq_true _⟩

theorem memEntries_written (written : LinesOf ShowsEntry content entries) :
    (lines content).filterMap memEntry = entries := by
  have shown := lines_linesOf written
  generalize lines content = found at shown
  clear written
  induction shown with
  | nil => rfl
  | cons first _ ih => rw [List.filterMap_cons_some (memEntry_shown first), ih]

theorem lastKib_written (written : LinesOf ShowsEntry content entries) (key : String) :
    (lastKib content key).toNat = kibibytes entries key := by
  rw [lastKib, memEntries_written written, kibibytes]

/-- The figures of memory, as long as they are numbers of bytes. -/
theorem parseMeminfo_written (written : LinesOf ShowsEntry content entries)
    (fits : ∀ entry ∈ entries, FitsKib entry.2)
    (sum : kibibytes entries "Cached" + kibibytes entries "SReclaimable" < 2 ^ 54) :
    ∃ info, parseMeminfo content = some info ∧ info.Tells entries := by
  have known := memEntries_written written
  have within : MeminfoFits content := by
    refine ⟨by rwa [known], ?_⟩
    rwa [lastKib_written written, lastKib_written written]
  obtain ⟨info, parsed⟩ := Option.isSome_iff_exists.mp (parseMeminfo_isSome.mpr within)
  refine ⟨info, parsed, ?_⟩
  rw [parseMeminfo] at parsed
  obtain ⟨kv, ran, rest⟩ := Option.bind_eq_some_iff.mp parsed
  obtain ⟨cached, added, made⟩ := Option.bind_eq_some_iff.mp rest
  have entry : ∀ key : List Char, kv.lookup key = (entries.reverse.lookup key).map (· * 1024) := by
    intro key
    rw [foldlM_insertEntry ran, known, AList.lookup_empty, Option.or_none]
  have bytes : ∀ key : String, (figure kv key).toNat = kibibytes entries key * 1024 := by
    intro key
    rw [← lastKib_written written]
    exact figure_toNat within.1 (by rw [entry, known])
  have present : "MemAvailable".toList ∈ kv ↔ "MemAvailable".toList ∈ entries.map Prod.fst := by
    rw [← AList.lookup_isSome, entry, Option.isSome_map, mem_keys_iff]
  have fitsSum : (figure kv "Cached").toNat + (figure kv "SReclaimable").toNat < 2 ^ 64 := by
    rw [bytes, bytes]
    omega
  have cachedBytes : cached.toNat =
      (kibibytes entries "Cached" + kibibytes entries "SReclaimable") * 1024 := by
    rw [addU64, if_pos fitsSum, Option.some.injEq] at added
    rw [← added, UInt64.toNat_add, Nat.mod_eq_of_lt fitsSum, bytes, bytes, Nat.add_mul]
  cases made
  refine ⟨bytes _, bytes _, ?_, bytes _, cachedBytes, bytes _, bytes _, bytes _, bytes _,
    saturatingSubU64_toNat _ _, rfl⟩
  simp only [memInfo, present]
  split
  · rw [bytes, Nat.mul_comm]
  · rw [bytes, Nat.mul_comm]

end Memory

section Swap

/-- Swap in bytes; what was paged in and out since the system came up, in bytes. -/
structure SwapInfo.Tells (info : SwapInfo) (entries : List (List Char × UInt64))
    (pagesIn pagesOut pageSize : UInt64) : Prop where
  total : info.total.toNat = kibibytes entries "SwapTotal" * 1024
  free : info.free.toNat = kibibytes entries "SwapFree" * 1024
  used : info.used.toNat = info.total.toNat - info.free.toNat
  percent : info.percent = usedPercent UInt64.toFloat round1 info.used info.total
  sin : info.sin.toNat = min (pagesIn.toNat * pageSize.toNat) (2 ^ 64 - 1)
  sout : info.sout.toNat = min (pagesOut.toNat * pageSize.toNat) (2 ^ 64 - 1)

variable {meminfo vmstat : List Char} {entries : List (List Char × UInt64)}
variable {rows : List (List (List Char))} {pagesIn pagesOut pageSize : UInt64}
variable {swap after : UInt64 × UInt64} {line : List Char}

/-- The bytes an entry shows for one key. -/
def bytesOf (key : String) (entry : List Char × UInt64) : Option UInt64 :=
  if entry.1 = key.toList then some (entry.2 * 1024) else none

theorem bytesOf_self (key : String) (value : UInt64) :
    bytesOf key (key.toList, value) = some (value * 1024) :=
  if_pos rfl

theorem bytesOf_other {key : String} {entry : List Char × UInt64} (other : entry.1 ≠ key.toList) :
    bytesOf key entry = none :=
  if_neg other

theorem swapEntry_figures (stepped : swapEntry swap line = some after) :
    after.1 = ((memEntry line).bind (bytesOf "SwapTotal")).getD swap.1 ∧
      after.2 = ((memEntry line).bind (bytesOf "SwapFree")).getD swap.2 := by
  rw [swapEntry] at stepped
  cases read : memEntry line with
  | none =>
      rw [read] at stepped
      cases stepped
      exact ⟨rfl, rfl⟩
  | some entry =>
      obtain ⟨key, value⟩ := entry
      have apart : "SwapTotal".toList ≠ "SwapFree".toList := by decide
      rw [read] at stepped
      simp only [Option.bind_some]
      simp only [mulU64_kib] at stepped
      split at stepped
      · rename_i total
        subst total
        rw [bytesOf_self, bytesOf_other apart]
        split at stepped
        · cases stepped
          exact ⟨rfl, rfl⟩
        · cases stepped
      split at stepped
      · rename_i total free
        subst free
        rw [bytesOf_self, bytesOf_other total]
        split at stepped
        · cases stepped
          exact ⟨rfl, rfl⟩
        · cases stepped
      · rename_i total free
        rw [bytesOf_other total, bytesOf_other free]
        cases stepped
        exact ⟨rfl, rfl⟩

theorem vmstatLine_pages : (vmstatLine swap line).1 =
      ((tokensOf "pswpin".toList (splitWhitespace line)).map nextU64).getD swap.1 ∧
    (vmstatLine swap line).2 =
      ((tokensOf "pswpout".toList (splitWhitespace line)).map nextU64).getD swap.2 := by
  rw [vmstatLine]
  cases splitWhitespace line with
  | nil => exact ⟨rfl, rfl⟩
  | cons name tokens =>
      simp only [tokensOf, List.head?_cons, Option.some.injEq, List.tail_cons]
      split
      · rename_i swappedIn
        simp [swappedIn]
      split
      · rename_i swappedIn out
        simp
      · rename_i swappedIn out
        simp

/-- The last bytes shown for a key are those of its last entry. -/
theorem filterMap_bytesOf (key : String) :
    (entries.filterMap (bytesOf key)).getLast? =
      (entries.reverse.lookup key.toList).map (· * 1024) := by
  induction entries using List.reverseRecOn with
  | nil => rfl
  | append_singleton entries entry ih =>
      obtain ⟨name, value⟩ := entry
      rw [List.filterMap_append, List.reverse_append]
      by_cases same : name = key.toList
      · subst same
        simp [bytesOf]
      · have other : ¬ key.toList = name := fun swapped => same swapped.symm
        simp [bytesOf, same, beq_eq_false_iff_ne.mpr other, List.lookup_cons, ih]

theorem parseSwap_written (written : LinesOf ShowsEntry meminfo entries)
    (fits : ∀ entry ∈ entries, FitsKib entry.2) (counters : LinesOf Laid vmstat rows)
    (swappedIn : Counted rows "pswpin" pagesIn) (swappedOut : Counted rows "pswpout" pagesOut) :
    ∃ info, parseSwap meminfo vmstat pageSize = some info ∧
      info.Tells entries pagesIn pagesOut pageSize := by
  have known := memEntries_written written
  have within : SwapFits meminfo := by
    intro entry member _
    rw [known] at member
    exact fits entry member
  obtain ⟨info, parsed⟩ := Option.isSome_iff_exists.mp
    ((@parseSwap_isSome meminfo vmstat pageSize).mpr within)
  refine ⟨info, parsed, ?_⟩
  rw [parseSwap] at parsed
  obtain ⟨⟨total, free⟩, ran, made⟩ := Option.bind_eq_some_iff.mp parsed
  have figures : ∀ (key : String) (get : UInt64 × UInt64 → UInt64), get (0, 0) = 0 →
      (∀ swap line after, swapEntry swap line = some after →
        get after = ((memEntry line).bind (bytesOf key)).getD (get swap)) →
      (get (total, free)).toNat = kibibytes entries key * 1024 := by
    intro key get none_ steps
    have split : ((lines meminfo).filterMap fun line => (memEntry line).bind (bytesOf key)) =
        entries.filterMap (bytesOf key) := by
      rw [← known, List.filterMap_filterMap]
    rw [foldlM_last steps ran, split, filterMap_bytesOf, none_, kibibytes]
    cases last : entries.reverse.lookup key.toList with
    | none => rfl
    | some value =>
        obtain ⟨before, after, shape, _⟩ := List.lookup_eq_some_iff.mp last
        have small : value.toNat < 2 ^ 54 := fits (key.toList, value) (by
          rw [← List.mem_reverse, shape]
          simp)
        have kib : (1024 : UInt64).toNat = 1024 := rfl
        rw [Option.map_some, Option.getD_some, Option.getD_some, UInt64.toNat_mul, kib]
        exact Nat.mod_eq_of_lt (by omega)
  have pages : ∀ (name : String) (count : UInt64) (get : UInt64 × UInt64 → UInt64),
      get (0, 0) = 0 → Counted rows name count →
      (∀ pages line, get (vmstatLine pages line) =
        ((tokensOf name.toList (splitWhitespace line)).map nextU64).getD (get pages)) →
      get ((lines vmstat).foldl vmstatLine (0, 0)) = count := by
    intro name count get none_ counted steps
    rw [foldl_last steps, none_, ← counted.last, ← filterMap_lines counters]
  have totalBytes := figures "SwapTotal" Prod.fst rfl fun _ _ _ stepped =>
    (swapEntry_figures stepped).1
  have freeBytes := figures "SwapFree" Prod.snd rfl fun _ _ _ stepped =>
    (swapEntry_figures stepped).2
  have pagedIn := pages "pswpin" pagesIn Prod.fst rfl swappedIn fun _ _ => vmstatLine_pages.1
  have pagedOut := pages "pswpout" pagesOut Prod.snd rfl swappedOut fun _ _ => vmstatLine_pages.2
  cases made
  refine ⟨totalBytes, freeBytes, saturatingSubU64_toNat _ _, rfl, ?_, ?_⟩
  · rw [← pagedIn]
    exact saturatingMulU64_toNat _ _
  · rw [← pagedOut]
    exact saturatingMulU64_toNat _ _

end Swap

section Link

/-- `/sys` shows the flags of an interface in hexadecimal; the first is its status. -/
inductive ShowsFlags : Option (List Char) → Bool → Prop where
  | shown {bits : ℕ} (fits : bits < 2 ^ 64) :
      ShowsFlags (some ("0x".toList ++ Nat.toDigits 16 bits ++ ['\n'])) (decide (bits % 2 = 1))
  | unreadable : ShowsFlags none false

/-- The link speed in Mbps; `-1` where there is no link. -/
inductive ShowsSpeed : Option (List Char) → ℕ → Prop where
  | shown {mbps : ℕ} (fits : mbps < 2 ^ 44) :
      ShowsSpeed (some (Nat.toDigits 10 mbps ++ ['\n'])) mbps
  | unknown : ShowsSpeed (some "-1\n".toList) 0
  | unreadable : ShowsSpeed none 0

structure Network.LinuxIfaceMeta.Tells (status : LinuxIfaceMeta) (up : Bool) (mbps : ℕ) :
    Prop where
  isUp : status.isUp = up
  speed : status.speed.toNat = mbps * 1048576
  bytesSpeedRatePerSec : status.bytesSpeedRatePerSec.toNat = mbps * 1000000 / 8

variable {text : List Char} {flags speed : Option (List Char)} {up : Bool} {radix mbps n : ℕ}

theorem dropWhile_solid (solid : ∀ c ∈ text, isWhitespace c = false) :
    text.dropWhile isWhitespace = text := by
  cases text with
  | nil => rfl
  | cons c rest => exact List.dropWhile_cons_of_neg (by simp [solid c])

theorem trimmed_line (solid : ∀ c ∈ text, isWhitespace c = false) :
    trimmed (text ++ ['\n']) = text := by
  have blank : isWhitespace '\n' = true := rfl
  have turned : ∀ c ∈ text.reverse, isWhitespace c = false := fun c inside =>
    solid c (List.mem_reverse.mp inside)
  rw [trimmed, trim, String.toList_ofList, String.toList_ofList]
  cases text with
  | nil => rfl
  | cons c rest =>
      have first : ¬ isWhitespace c = true := by simp [solid c]
      rw [List.cons_append, List.dropWhile_cons_of_neg first, ← List.cons_append,
        List.reverse_append, List.reverse_singleton, List.singleton_append,
        List.dropWhile_cons_of_pos blank, dropWhile_solid turned, List.reverse_reverse]

theorem toDigits_solid_of (two : 1 < radix) (within : radix ≤ 16) :
    ∀ c ∈ Nat.toDigits radix n, isWhitespace c = false := by
  intro c inside
  obtain ⟨digit, small, rfl⟩ := mem_toDigits two inside
  have known : digit < 16 := by omega
  interval_cases digit <;> rfl

theorem isIfaceUp_shown (shown : ShowsFlags flags up) : isIfaceUp flags = up := by
  cases shown with
  | unreadable => rfl
  | @shown bits fits =>
      have digits := @toDigits_solid_of 16 bits (by decide) (by decide)
      have solid : ∀ c ∈ "0x".toList ++ Nat.toDigits 16 bits, isWhitespace c = false := by
        intro c inside
        rcases List.mem_append.mp inside with start | digit
        · exact solid_of_any (by decide) c start
        · exact digits c digit
      have bare : ∀ rest, Nat.toDigits 16 bits ≠ '0' :: 'x' :: rest := by
        intro rest start
        have cross : 'x' ∈ Nat.toDigits 16 bits := by rw [start]; simp
        obtain ⟨digit, small, same⟩ := mem_toDigits (by decide) cross
        interval_cases digit <;> cases same
      have stripped : trimHexPrefix ("0x".toList ++ Nat.toDigits 16 bits) =
          Nat.toDigits 16 bits := by
        rw [show "0x".toList = ['0', 'x'] from rfl, List.cons_append, List.cons_append,
          List.nil_append, trimHexPrefix, trimHexPrefix.eq_def]
        split
        · rename_i rest start
          exact absurd start (bare rest)
        · rfl
      rw [isIfaceUp, Option.bind_some, trimmed_line solid, stripped,
        fromStrRadix_toDigits (by decide) (by decide) fits]
      rfl

theorem linkMbps_shown (shown : ShowsSpeed speed mbps) :
    (linkMbps speed).toNat = mbps ∧ mbps < 2 ^ 44 := by
  cases shown with
  | unknown => exact ⟨by decide +kernel, by decide⟩
  | unreadable => exact ⟨rfl, by decide⟩
  | shown fits =>
      refine ⟨?_, fits⟩
      rw [linkMbps, Option.bind_some, trimmed_line (toDigits_solid_of (by decide) (by decide)),
        parseI64_toDigits (by omega)]
      rcases Nat.eq_zero_or_pos mbps with rfl | positive
      · rfl
      · simp only [Option.filter_some, Nat.cast_pos, positive, decide_true, if_true,
          Option.map_some, Option.getD_some, Int.toNat_natCast]
        have size : UInt64.size = 2 ^ 64 := rfl
        exact UInt64.toNat_ofNat_of_lt' (by omega)

/-- Status and speed of an interface; the two scales of the speed are the source's. -/
theorem readIfaceMeta_shown (status : ShowsFlags flags up) (link : ShowsSpeed speed mbps) :
    ∃ shown, readIfaceMeta flags speed = some shown ∧ shown.Tells up mbps := by
  obtain ⟨known, fits⟩ := linkMbps_shown link
  have mebi : (1048576 : UInt64).toNat = 1048576 := by decide +kernel
  have mega : (1000000 : UInt64).toNat = 1000000 := by decide +kernel
  have eight : (8 : UInt64).toNat = 8 := rfl
  have bits : (linkMbps speed).toNat * (1048576 : UInt64).toNat < 2 ^ 64 := by
    rw [known, mebi]
    omega
  have bytes : (linkMbps speed).toNat * (1000000 : UInt64).toNat < 2 ^ 64 := by
    rw [known, mega]
    omega
  refine ⟨⟨isIfaceUp flags, linkMbps speed * 1048576, linkMbps speed * 1000000 / 8⟩, ?_,
    isIfaceUp_shown status, ?_, ?_⟩
  · rw [readIfaceMeta, speedCapacityBytesPerDir, mulU64, if_pos bits, mulU64, if_pos bytes]
    rfl
  · rw [UInt64.toNat_mul, Nat.mod_eq_of_lt bits, known, mebi]
  · rw [UInt64.toNat_div, UInt64.toNat_mul, Nat.mod_eq_of_lt bytes, known, mega, eight]

end Link

section Files

/-- What the kernel has to tell when the files are read. -/
structure KernelFigures where
  sample : CpuSample
  memory : List (List Char × UInt64)
  swap : List (List Char × UInt64)
  pagesIn : UInt64
  pagesOut : UInt64
  disks : List DiskRow
  up : Bool
  mbps : ℕ

/-- The files tell the figures, which are numbers of bytes. -/
structure KernelFigures.Written (figures : KernelFigures) (stat : List Char)
    (files : ProcContents) : Prop where
  stat : ∃ rows, LinesOf Laid stat rows ∧ StatRows rows figures.sample
  meminfo : LinesOf ShowsEntry files.meminfo figures.memory
  swapMeminfo : LinesOf ShowsEntry files.swapMeminfo figures.swap
  vmstat : ∃ rows, LinesOf Laid files.vmstat rows ∧ Counted rows "pswpin" figures.pagesIn ∧
    Counted rows "pswpout" figures.pagesOut
  diskstats : ∃ rows, LinesOf Laid files.diskstats rows ∧
    rows.filter (fun row => 14 ≤ row.length) = figures.disks.map DiskRow.row
  flags : ShowsFlags files.flags figures.up
  speed : ShowsSpeed files.speed figures.mbps
  memory_fits : ∀ entry ∈ figures.memory, FitsKib entry.2
  cached_fits :
    kibibytes figures.memory "Cached" + kibibytes figures.memory "SReclaimable" < 2 ^ 54
  swap_fits : ∀ entry ∈ figures.swap, FitsKib entry.2

/-- Everything the parsers report is what the kernel had to tell, however the files
are laid out. -/
theorem proc_readBack {figures : KernelFigures} {stat : List Char} {files : ProcContents}
    (written : figures.Written stat files) :
    parseProcStat stat = some figures.sample ∧
    (∃ info, parseMeminfo files.meminfo = some info ∧ info.Tells figures.memory) ∧
    (∃ info, parseSwap files.swapMeminfo files.vmstat files.pageSize = some info ∧
      info.Tells figures.swap figures.pagesIn figures.pagesOut files.pageSize) ∧
    (∀ name, Option.Rel DiskIoCounters.Tells ((parseDiskstats files.diskstats).lookup name)
      (figures.disks.reverse.find? fun disk => String.ofList disk.name = name)) ∧
    ∃ status, readIfaceMeta files.flags files.speed = some status ∧
      status.Tells figures.up figures.mbps := by
  obtain ⟨_, statRows, sample⟩ := written.stat
  obtain ⟨_, vmstatRows, pagedIn, pagedOut⟩ := written.vmstat
  obtain ⟨_, diskRows, disks⟩ := written.diskstats
  exact ⟨parseProcStat_written statRows sample,
    parseMeminfo_written written.meminfo written.memory_fits written.cached_fits,
    parseSwap_written written.swapMeminfo written.swap_fits vmstatRows pagedIn pagedOut,
    parseDiskstats_written diskRows disks,
    readIfaceMeta_shown written.flags written.speed⟩

/-- An old kernel with four columns of jiffies and one disk. -/
def statRows : List (List (List Char)) :=
  ["cpu".toList :: [4705, 150, 1120, 16250].map decimal, ["ctxt".toList, decimal 22]]

def vmstatRows : List (List (List Char)) := [["pswpin".toList, decimal 3]]

def rootDisk : DiskRow where
  major := ['8']
  minor := ['0']
  name := "sda".toList
  stats := [9, 0, 72, 5, 4, 0, 32, 6, 0, 11, 11]
  enough := by decide

def entryLine (entry : List Char × UInt64) : List Char :=
  entry.1 ++ ':' :: ' ' :: rowText [decimal entry.2, "kB".toList]

def smallFigures : KernelFigures where
  sample := { CpuSample.zero with
    user := 4705, nice := 150, system := 1120, idle := 16250, ctxt := 22 }
  memory := [("MemTotal".toList, 16461176)]
  swap := [("SwapTotal".toList, 2048)]
  pagesIn := 3
  pagesOut := 0
  disks := [rootDisk]
  up := true
  mbps := 1000

def smallFiles : ProcContents where
  meminfo := entryLine ("MemTotal".toList, 16461176) ++ '\n' :: []
  swapMeminfo := entryLine ("SwapTotal".toList, 2048) ++ '\n' :: []
  vmstat := tableText vmstatRows
  pageSize := 4096
  diskstats := tableText [rootDisk.row]
  flags := some "0x1003\n".toList
  speed := some "1000\n".toList

theorem smallFigures_readBack :
    smallFigures.Written (tableText statRows) smallFiles ∧
      parseProcStat (tableText statRows) = some smallFigures.sample := by
  have entry : ∀ {key : List Char} {value : UInt64}, ':' ∉ key →
      (∀ word ∈ [decimal value, "kB".toList], Solid word) →
      ShowsEntry (entryLine (key, value)) (key, value) := by
    intro key value plain solid
    exact .entry plain (.blank rfl (laid_rowText solid))
  have written : smallFigures.Written (tableText statRows) smallFiles := {
    stat := ⟨statRows, linesOf_tableText (by decide +kernel),
      ⟨[4705, 150, 1120, 16250], by decide, by decide +kernel, by decide +kernel⟩,
      @Counted.shown _ _ _ [] (by decide +kernel), .absent (by decide +kernel),
      .absent (by decide +kernel)⟩
    meminfo := .line (by decide +kernel) (by decide +kernel)
      (entry (by decide) (by decide +kernel)) .nil
    swapMeminfo := .line (by decide +kernel) (by decide +kernel)
      (entry (by decide) (by decide +kernel)) .nil
    vmstat := ⟨vmstatRows, linesOf_tableText (by decide +kernel),
      @Counted.shown _ _ _ [] (by decide +kernel), .absent (by decide +kernel)⟩
    diskstats := ⟨[rootDisk.row], linesOf_tableText (by decide +kernel), by decide +kernel⟩
    flags := @ShowsFlags.shown 0x1003 (by decide)
    speed := @ShowsSpeed.shown 1000 (by decide)
    memory_fits := by simp [smallFigures, FitsKib]
    cached_fits := by decide +kernel
    swap_fits := by simp [smallFigures, FitsKib] }
  exact ⟨written, (proc_readBack written).1⟩

end Files

end GlancesRs
