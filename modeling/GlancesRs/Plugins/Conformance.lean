import GlancesRs.Alerts.Observe
import GlancesRs.Plugins.Documented

namespace GlancesRs

open Data

/-! Every payload of every plugin, after any cycles, conforms to the schema. -/

/-- What the `collect` of a plugin can return, and whether the system could be read
for it. Of code outside the server it is assumed that the load averages are numbers. -/
inductive Collected (crates : Crates) (isMatch : crates.Regex → String → Bool) :
    PluginId → Bool → Json → Prop where
  | cpu {cpucore : UInt64} {cycles : List (SampleCycle (Option CpuSample))}
      {cycle : SampleCycle (Option CpuSample)} (range : cycle.main.instant < 2 ^ 64 * 10 ^ 9) :
      Collected crates isMatch .cpu
        ((((CpuPlugin.sampler cpucore).run cycles).1.selfBootstrap cycle.warmUp).prev.isSome &&
          cycle.main.value.isSome)
        ((CpuPlugin.sampler cpucore).published cycles cycle)
  | memSwap {cycles : List (SampleCycle (Option SwapInfo))} {cycle : SampleCycle (Option SwapInfo)}
      (range : cycle.main.instant < 2 ^ 64 * 10 ^ 9)
      (parsed : ∀ s ∈ cycle.main.value, ∃ meminfo vmstat pageSize,
        parseSwap meminfo vmstat pageSize = some s) :
      Collected crates isMatch .memSwap true (MemSwapPlugin.sampler.published cycles cycle)
  | network {plugin : CollectionPlugin crates} {cycles : List (SampleCycle Network.Tables)}
      {cycle : SampleCycle Network.Tables} (range : cycle.main.instant < 2 ^ 64 * 10 ^ 9) :
      Collected crates isMatch .network true
        ((NetworkPlugin.sampler isMatch plugin).published cycles cycle)
  | diskio {plugin : CollectionPlugin crates}
      {cycles : List (SampleCycle (Option (HashMap String DiskIoCounters)))}
      {cycle : SampleCycle (Option (HashMap String DiskIoCounters))}
      (range : cycle.main.instant < 2 ^ 64 * 10 ^ 9) :
      Collected crates isMatch .diskio true
        ((DiskioPlugin.sampler isMatch plugin).published cycles cycle)
  | fs {plugin : CollectionPlugin crates} {clock : TickClock} {now : Instant} {tables : Fs.Tables}
      (range : now < 2 ^ 64 * 10 ^ 9) :
      Collected crates isMatch .fs true (FsPlugin.collect isMatch plugin clock now tables).2
  | mem {clock : TickClock} {now : Instant} {memInfo : Option MemInfo}
      (range : now < 2 ^ 64 * 10 ^ 9)
      (parsed : ∀ m ∈ memInfo, ∃ content, parseMeminfo content = some m) :
      Collected crates isMatch .mem memInfo.isSome (MemPlugin.collect clock now memInfo).2
  | load {cpucore : UInt64} {clock : TickClock} {now : Instant} {load : LoadAvg}
      (range : now < 2 ^ 64 * 10 ^ 9)
      (measured : ∀ average ∈ [load.one, load.five, load.fifteen], ∃ bound, average.Within bound) :
      Collected crates isMatch .load true (LoadPlugin.collect cpucore clock now load).2
  | system {clock : TickClock} {now : Instant} {host : Host} (range : now < 2 ^ 64 * 10 ^ 9) :
      Collected crates isMatch .system true (SystemPlugin.collect clock now host).2
  | uptime {clock : TickClock} {now : Instant} {uptime : UInt64} (range : now < 2 ^ 64 * 10 ^ 9) :
      Collected crates isMatch .uptime true (UptimePlugin.collect clock now uptime).2

/-- No documented field is missing but the optional ones. -/
def Covers (id : PluginId) (payload : Json) : Prop :=
  match id.keyField with
  | none => ∀ name ∈ requiredFields id, payload.get? name ≠ none
  | some _ => ∀ item ∈ items payload, ∀ name ∈ requiredFields id, item.get? name ≠ none

variable {crates : Crates} {isMatch : crates.Regex → String → Bool} {id : PluginId} {full : Bool}
variable {payload : Json} {stats members : List (String × Json)} {elapsed : Float}

theorem lookup_ne_none_of_mem_names {name : String} (listed : name ∈ stats.map Prod.fst) :
    stats.lookup name ≠ none := by
  intro absent
  obtain ⟨⟨_, value⟩, inside, rfl⟩ := List.mem_map.mp listed
  have missing := List.lookup_eq_none_iff.mp absent _ inside
  simp at missing

theorem requiredFields_plain : ∀ name ∈ requiredFields id,
    name ≠ "time_since_update" ∧ name ≠ "_levels" := by
  cases id <;> decide +kernel

theorem covers_envelope (unkeyed : id.keyField = none) (covered : Covered id stats) :
    Covers id (envelope (.object stats) elapsed) := by
  rw [Covers, unkeyed]
  intro name required
  obtain ⟨notTime, notLevels⟩ := requiredFields_plain name required
  rw [envelope_get? notTime notLevels]
  exact lookup_ne_none_of_mem_names (covered name required)

theorem covers_of_names (unkeyed : id.keyField = none)
    (all : ((requiredFields id).all fun name => (members.map Prod.fst).contains name) = true) :
    Covers id (envelope (.object (jsonMembers members)) elapsed) := by
  refine covers_envelope unkeyed fun name required => names_jsonMembers.mpr ?_
  simpa using List.all_eq_true.mp all name required

section Scalars

theorem CpuPlugin.collect_conforms {cpucore : UInt64} {state : CpuState}
    {cycle : SampleCycle (Option CpuSample)} (range : cycle.main.instant < 2 ^ 64 * 10 ^ 9) :
    Conforms .cpu (collect cpucore state cycle).2 ∧
      ((state.selfBootstrap cycle.warmUp).prev.isSome = true → cycle.main.value.isSome = true →
        Covers .cpu (collect cpucore state cycle).2) := by
  have elapsed : ∀ last, cycle.main.instant - last < 2 ^ 64 * 10 ^ 9 :=
    fun last => (Nat.sub_le _ last).trans_lt range
  simp only [collect]
  split
  · rename_i prior cur held taken
    obtain ⟨parts, guest⟩ := @cpuPercents_within prior cur
    simp only [CpuPercents.partsOfTotal, List.forall_mem_cons] at parts
    obtain ⟨total, user, system, idle, nice, iowait, irq, steal, _⟩ := parts
    refine ⟨conforms_envelope rfl (documented_jsonMembers ⟨.percent rfl total, .percent rfl user,
      .percent rfl system, .percent rfl idle, .percent rfl nice, .percent rfl iowait,
      .percent rfl irq, .percent rfl steal, .guest guest,
      .rate rfl (.inr (.inl rfl)) (elapsed _) _, .rate rfl (.inr (.inl rfl)) (elapsed _) _,
      .rate rfl (.inr (.inl rfl)) (elapsed _) _, .measure rfl (.inr (.inl rfl)) Float.within_zero,
      .count rfl (by decide) _⟩) (asSecsF64_round3 (elapsed _)), fun _ _ => ?_⟩
    exact covers_of_names rfl rfl
  · rename_i missing
    refine ⟨conforms_envelope rfl ?_ (asSecsF64_round3 (elapsed _)), fun held taken => ?_⟩
    · exact @documented_jsonMembers .cpu [("cpucore", .ofU64 cpucore)]
        (.count rfl (by decide) _)
    · obtain ⟨prior, held⟩ := Option.isSome_iff_exists.mp held
      obtain ⟨cur, taken⟩ := Option.isSome_iff_exists.mp taken
      exact absurd taken (missing prior cur held)

theorem MemSwapPlugin.collect_conforms {state : MemSwapState} {cycle : SampleCycle (Option SwapInfo)}
    (range : cycle.main.instant < 2 ^ 64 * 10 ^ 9)
    (parsed : ∀ s ∈ cycle.main.value, ∃ meminfo vmstat pageSize,
      parseSwap meminfo vmstat pageSize = some s) :
    Conforms .memSwap (collect state cycle).2 ∧ Covers .memSwap (collect state cycle).2 := by
  have elapsed : ∀ last, cycle.main.instant - last < 2 ^ 64 * 10 ^ 9 :=
    fun last => (Nat.sub_le _ last).trans_lt range
  simp only [collect]
  split
  · refine ⟨conforms_envelope rfl (documented_jsonMembers ⟨.count rfl (by decide) _,
      .count rfl (by decide) _, .count rfl (by decide) _, .percent rfl within_zero_hundred,
      .measure rfl (.inl rfl) Float.within_zero, .measure rfl (.inl rfl) Float.within_zero⟩)
      (asSecsF64_round3 (elapsed _)), ?_⟩
    exact covers_of_names rfl rfl
  · rename_i s taken
    obtain ⟨meminfo, vmstat, pageSize, read⟩ := parsed s taken
    refine ⟨conforms_envelope rfl (documented_jsonMembers ⟨.count rfl (by decide) _,
      .count rfl (by decide) _, .count rfl (by decide) _, .percent rfl (parseSwap_percent read),
      ?_, ?_⟩) (asSecsF64_round3 (elapsed _)), covers_of_names rfl rfl⟩
    -- one reading has no rates yet
    · split
      · exact .measure rfl (.inl rfl) (perSec_within _ (elapsed _))
      · exact .measure rfl (.inl rfl) Float.within_zero
    · split
      · exact .measure rfl (.inl rfl) (perSec_within _ (elapsed _))
      · exact .measure rfl (.inl rfl) Float.within_zero

variable {clock : TickClock} {now : Instant}

theorem MemPlugin.collect_conforms {memInfo : Option MemInfo} (range : now < 2 ^ 64 * 10 ^ 9)
    (parsed : ∀ m ∈ memInfo, ∃ content, parseMeminfo content = some m) :
    Conforms .mem (collect clock now memInfo).2 ∧
      (memInfo.isSome = true → Covers .mem (collect clock now memInfo).2) := by
  cases memInfo with
  | none =>
      refine ⟨conforms_envelope rfl (documented_jsonMembers ⟨.count rfl (by decide) _,
        .count rfl (by decide) _, .percent rfl within_zero_hundred, .count rfl (by decide) _,
        .count rfl (by decide) _⟩) (tick_within clock range), fun impossible => by cases impossible⟩
  | some m =>
      obtain ⟨content, read⟩ := parsed m rfl
      refine ⟨conforms_envelope rfl (documented_jsonMembers ⟨.count rfl (by decide) _,
        .count rfl (by decide) _, .percent rfl (parseMeminfo_percent read), .count rfl (by decide) _,
        .count rfl (by decide) _, .count rfl (by decide) _, .count rfl (by decide) _,
        .count rfl (by decide) _, .count rfl (by decide) _, .count rfl (by decide) _,
        .count rfl (by decide) _⟩) (tick_within clock range), fun _ => ?_⟩
      exact covers_of_names rfl rfl

theorem LoadPlugin.collect_conforms {cpucore : UInt64} {load : LoadAvg} (range : now < 2 ^ 64 * 10 ^ 9)
    (measured : ∀ average ∈ [load.one, load.five, load.fifteen], ∃ bound, average.Within bound) :
    Conforms .load (collect cpucore clock now load).2 ∧
      Covers .load (collect cpucore clock now load).2 := by
  simp only [List.forall_mem_cons] at measured
  obtain ⟨⟨_, one⟩, ⟨_, five⟩, ⟨_, fifteen⟩, _⟩ := measured
  refine ⟨conforms_envelope rfl (documented_jsonMembers ⟨.measure rfl (.inr (.inr rfl)) one,
    .measure rfl (.inr (.inr rfl)) five, .measure rfl (.inr (.inr rfl)) fifteen,
    .count rfl (by decide) _⟩) (tick_within clock range), ?_⟩
  exact covers_of_names rfl rfl

theorem SystemPlugin.collect_conforms {host : Host} (range : now < 2 ^ 64 * 10 ^ 9) :
    Conforms .system (collect clock now host).2 ∧ Covers .system (collect clock now host).2 := by
  refine ⟨conforms_envelope rfl (documented_jsonMembers ⟨.text rfl _, .text rfl _, .text rfl _,
    .text rfl _, .text rfl _, .text rfl _⟩) (tick_within clock range), ?_⟩
  exact covers_of_names rfl rfl

theorem UptimePlugin.collect_conforms {uptime : UInt64} (range : now < 2 ^ 64 * 10 ^ 9) :
    Conforms .uptime (collect clock now uptime).2 ∧ Covers .uptime (collect clock now uptime).2 := by
  have documented : Documented .uptime (jsonMembers [("seconds", .ofU64 uptime)]) :=
    documented_jsonMembers (.count rfl (by decide) _)
  refine ⟨conforms_envelope rfl documented (tick_within clock range), ?_⟩
  exact covers_of_names rfl rfl

end Scalars

section Collections

variable {pkField : String} {κ : Type} {listing : List Json}

theorem covers_envelopeKeyed (keyed : id.keyField = some pkField)
    (covered : ∀ item ∈ listing, ∃ stats, item = .object stats ∧ Covered id stats) :
    Covers id (envelopeKeyed listing elapsed pkField) := by
  rw [Covers, keyed]
  intro item shown name required
  obtain ⟨stats, rfl, complete⟩ := covered item shown
  exact lookup_ne_none_of_mem_names (complete name required)

/-- What a rate step publishes, from what is known of each of its items. -/
theorem stepItems_conforms {render : String → κ → κ → Json} {previous current : HashMap String κ}
    (keyed : id.keyField = some pkField) (measured : (round3 elapsed).Within ((2 ^ 65 : ℕ) : ℚ))
    (rendered : ∀ name prev cur, previous.lookup name = some prev → current.lookup name = some cur →
      ∃ stats, render name prev cur = .object stats ∧ Documented id stats ∧
        stats.lookup pkField = some (.string name) ∧ Covered id stats) :
    Conforms id (envelopeKeyed (stepItems pkField render previous current).1 elapsed pkField) ∧
      Covers id (envelopeKeyed (stepItems pkField render previous current).1 elapsed pkField) := by
  refine ⟨conforms_envelopeKeyed keyed ?_ measured, covers_envelopeKeyed keyed fun item shown => ?_⟩
  · refine listed_sortItems fun item shown => ?_
    have listed : item ∈ (stepItems pkField render previous current).1 :=
      (List.mem_insertionSort _).mpr shown
    obtain ⟨name, prev, cur, held, found, rfl⟩ := mem_stepItems.mp listed
    obtain ⟨stats, made, documented, named, _⟩ := rendered name prev cur held found
    exact ⟨stats, name, made, documented, named⟩
  · obtain ⟨name, prev, cur, held, found, rfl⟩ := mem_stepItems.mp shown
    obtain ⟨stats, made, _, _, covered⟩ := rendered name prev cur held found
    exact ⟨stats, made, covered⟩

theorem lookup_of_get? {item : Json} {value : Option Json} (made : item = .object stats)
    (found : item.get? pkField = value) : stats.lookup pkField = value := by
  rw [made] at found
  exact found

variable {plugin : CollectionPlugin crates}

theorem DiskioPlugin.collect_conforms {state : DiskioState}
    {cycle : SampleCycle (Option (HashMap String DiskIoCounters))}
    (range : cycle.main.instant < 2 ^ 64 * 10 ^ 9) :
    Conforms .diskio (collect isMatch plugin state cycle).2 ∧
      Covers .diskio (collect isMatch plugin state cycle).2 := by
  have elapsed : ∀ last, cycle.main.instant - last < 2 ^ 64 * 10 ^ 9 :=
    fun last => (Nat.sub_le _ last).trans_lt range
  refine stepItems_conforms rfl (asSecsF64_round3 (elapsed _)) fun name prev cur _ _ => ?_
  obtain ⟨stats, made, documented, covered⟩ :=
    @Diskio.item_documented _ name plugin.alias (elapsed _) prev cur
  exact ⟨stats, made, documented, lookup_of_get? made Diskio.item_key, covered⟩

namespace NetworkPlugin

theorem drops_sample {tables : Network.Tables} {name : String} {c : Network.Counters}
    (found : (sample isMatch plugin tables).lookup name = some c) : c.drops.isSome = true := by
  rw [sample, AList.lookup_filterMap] at found
  obtain ⟨data, _, kept⟩ := Option.bind_eq_some_iff.mp found
  split at kept
  · cases kept
    rfl
  · cases kept

theorem lookup_gatherMeta {tables : Network.Tables} {current : HashMap String Network.Counters}
    {name : String} {c : Network.Counters} (found : current.lookup name = some c) :
    ∃ m up speed capacity, (Network.gatherMeta tables current).lookup name = some m ∧
      m.isUp = some up ∧ m.speed = some speed ∧ m.bytesSpeedRatePerSec = some capacity := by
  rw [Network.gatherMeta, AList.lookup_filterMap, found]
  exact ⟨_, _, _, _, rfl, rfl, rfl, rfl⟩

/-- The drops are read in every cycle, so the state has them as well. -/
theorem drops_run (cycles : List (SampleCycle Network.Tables)) : ∀ name c,
    ((sampler isMatch plugin).run cycles).1.previous.lookup name = some c → c.drops.isSome = true := by
  refine @Sampler.run_invariant _ _ _ (sampler isMatch plugin)
    (fun state _ => ∀ name c, state.previous.lookup name = some c → c.drops.isSome = true)
    (fun name c found => by cases found) (fun _ _ _ _ name c found => drops_sample found) cycles

theorem drops_selfBootstrap {state : NetworkState} {baseline : Reading Network.Tables}
    (kept : ∀ name c, state.previous.lookup name = some c → c.drops.isSome = true) : ∀ name c,
    (state.selfBootstrap (sample isMatch plugin) baseline).previous.lookup name = some c →
      c.drops.isSome = true := by
  intro name c found
  rw [ItemState.selfBootstrap] at found
  split at found
  · exact drops_sample found
  · exact kept name c found

theorem published_conforms {cycles : List (SampleCycle Network.Tables)}
    {cycle : SampleCycle Network.Tables} (range : cycle.main.instant < 2 ^ 64 * 10 ^ 9) :
    Conforms .network ((sampler isMatch plugin).published cycles cycle) ∧
      Covers .network ((sampler isMatch plugin).published cycles cycle) := by
  have elapsed : ∀ last, cycle.main.instant - last < 2 ^ 64 * 10 ^ 9 :=
    fun last => (Nat.sub_le _ last).trans_lt range
  refine stepItems_conforms rfl (asSecsF64_round3 (elapsed _)) fun name prev cur held found => ?_
  obtain ⟨stats, made, documented, covered⟩ :=
    @Network.item_documented _ name plugin.alias
      (Network.gatherMeta cycle.main.value (sample isMatch plugin cycle.main.value)) (elapsed _) prev cur
  exact ⟨stats, made, documented, lookup_of_get? made Network.item_key,
    covered (drops_selfBootstrap (drops_run cycles) name prev held) (drops_sample found)
      (lookup_gatherMeta found)⟩

end NetworkPlugin

theorem FsPlugin.collect_conforms {clock : TickClock} {now : Instant} {tables : Fs.Tables}
    (range : now < 2 ^ 64 * 10 ^ 9) :
    Conforms .fs (collect isMatch plugin clock now tables).2 ∧
      Covers .fs (collect isMatch plugin clock now tables).2 := by
  have rendered : ∀ item ∈ listed isMatch plugin tables, ∃ stats pk, item = .object stats ∧
      Documented .fs stats ∧ stats.lookup "mnt_point" = some (.string pk) ∧ Covered .fs stats := by
    intro item shown
    obtain ⟨disk, _, kept⟩ := List.mem_filterMap.mp shown
    dsimp only at kept
    split at kept
    · cases kept
      obtain ⟨stats, made, documented, covered⟩ := @Fs.item_documented (toStringLossy disk.mountPoint)
        plugin.alias tables disk
      exact ⟨stats, _, made, documented, lookup_of_get? made Fs.item_key, covered⟩
    · cases kept
  refine ⟨conforms_envelopeKeyed rfl (listed_sortItems fun item shown => ?_) (tick_within clock range),
    covers_envelopeKeyed rfl fun item shown => ?_⟩
  · obtain ⟨stats, pk, made, documented, named, _⟩ := rendered item shown
    exact ⟨stats, pk, made, documented, named⟩
  · obtain ⟨stats, _, made, _, _, covered⟩ := rendered item ((List.mem_insertionSort _).mp shown)
    exact ⟨stats, made, covered⟩

end Collections

/-- Whatever the plugin, the cycles before and the readings, its payload is one the
schema documents; nothing but an alias or mount options is ever missing from it
unless the system could not be read. -/
theorem Collected.conforms (collected : Collected crates isMatch id full payload) :
    Conforms id payload ∧ (full = true → Covers id payload) := by
  cases collected with
  | @cpu cpucore cycles cycle range =>
      have conforms := @CpuPlugin.collect_conforms cpucore
        (((CpuPlugin.sampler cpucore).run cycles).1) cycle range
      refine ⟨conforms.1, fun both => ?_⟩
      rw [Bool.and_eq_true] at both
      exact conforms.2 both.1 both.2
  | @memSwap cycles cycle range parsed =>
      have conforms := @MemSwapPlugin.collect_conforms (MemSwapPlugin.sampler.run cycles).1 cycle range
        parsed
      exact ⟨conforms.1, fun _ => conforms.2⟩
  | network range =>
      exact (NetworkPlugin.published_conforms range).imp_right fun covers _ => covers
  | @diskio plugin cycles cycle range =>
      have conforms := @DiskioPlugin.collect_conforms crates isMatch plugin
        ((DiskioPlugin.sampler isMatch plugin).run cycles).1 cycle range
      exact ⟨conforms.1, fun _ => conforms.2⟩
  | fs range =>
      exact (FsPlugin.collect_conforms range).imp_right fun covers _ => covers
  | mem range parsed => exact MemPlugin.collect_conforms range parsed
  | load range measured =>
      exact (LoadPlugin.collect_conforms range measured).imp_right fun covers _ => covers
  | system range => exact (SystemPlugin.collect_conforms range).imp_right fun covers _ => covers
  | uptime range => exact (UptimePlugin.collect_conforms range).imp_right fun covers _ => covers

end GlancesRs
