import GlancesRs.Config.Validated
import GlancesRs.Data.Clock
import GlancesRs.Plugins.Cpu
import GlancesRs.Plugins.Diskio
import GlancesRs.Plugins.MemSwap
import GlancesRs.Plugins.Network

namespace GlancesRs

open Data

/-! Which interval a published rate is over. The collection plugins replace their
sample whenever they move their timestamp; `cpu` and `memswap` keep the sample of
before a failed read and move the timestamp past it. -/

/-- The rates of a scalar payload are over the time between the two samples they
are the difference of. Short of two samples there is a placeholder. -/
structure OwnInterval {α : Type} (counters : List (String × (α → UInt64)))
    (placeholder : Option Json) (earlier : List (Reading (Option α))) (reading : Reading (Option α))
    (payload : Json) : Prop where
  rated : ∀ entry ∈ counters, ∀ cur value, reading.value = some cur → latest earlier ≠ none →
    payload.get? entry.1 = some value →
    ∃ first ∈ earlier, ∃ prior, first.value = some prior ∧
      value = .ofRate (saturatingSubU64 (entry.2 cur) (entry.2 prior))
        (secondsSince first.instant reading.instant)
  unrated : ∀ entry ∈ counters, reading.value = none ∨ latest earlier = none →
    payload.get? entry.1 = placeholder

/-- The same of the items of a collection, each by its key. -/
def ItemIntervals {ρ κ : Type} (pkField : String) (counters : ρ → String → Option κ)
    (deltas : List (String × (κ → κ → Option UInt64))) (earlier : List (Reading ρ))
    (reading : Reading ρ) (payload : Json) : Prop :=
  ∃ items, payload.get? "data" = some (.array items) ∧ ∀ item ∈ items,
    ∃ first ∈ earlier, ∃ name prior cur, item.get? pkField = some (.string name) ∧
      counters first.value name = some prior ∧ counters reading.value name = some cur ∧
      ∀ entry ∈ deltas, item.get? entry.1 =
        (entry.2 cur prior).map (Json.ofRate · (secondsSince first.instant reading.instant))

/-- A cycle that can publish a rate follows a reading that did not fail, so that the
timestamp it measures from is that of the sample it holds. -/
def Unbroken {α β : Type} (held : Option β) (earlier : List (Reading (Option α)))
    (reading : Reading (Option α)) : Prop :=
  reading.value ≠ none → held ≠ none → EndsInSample earlier

section Scalar

variable {α β : Type} {view : α → β} {counters : List (String × (α → UInt64))}
variable {placeholder : Option Json} {earlier : List (Reading (Option α))}
variable {reading : Reading (Option α)} {payload : Json} {prev : Option β} {last : Option Instant}
variable {held : β} {cur : α}

/-- A rate against the sample held, since the timestamp kept. -/
theorem OwnInterval.of_held (tracked : Tracks view prev last earlier)
    (unbroken : Unbroken prev earlier reading) (kept : prev = some held)
    (taken : reading.value = some cur)
    (rates : ∀ prior, held = view prior → ∀ entry ∈ counters, payload.get? entry.1 =
      some (.ofRate (saturatingSubU64 (entry.2 cur) (entry.2 prior))
        (secondsSince (last.getD reading.instant) reading.instant))) :
    OwnInterval counters placeholder earlier reading payload := by
  have ends := unbroken (by simp [taken]) (by simp [kept])
  obtain ⟨first, inside, prior, success, same, started⟩ := tracked.paired ends kept
  constructor
  · intro entry listed current value read _ published
    rw [taken, Option.some.injEq] at read
    subst read
    have rate := rates prior same entry listed
    rw [started, Option.getD_some] at rate
    exact ⟨first, inside, prior, success, Option.some.inj (published.symm.trans rate)⟩
  · intro entry listed missing
    rcases missing with failure | unsampled
    · rw [taken] at failure
      cases failure
    · exact absurd unsampled (tracked.sampled kept)

theorem cpu_own_interval (cpucore : UInt64) (cycles : List (SampleCycle (Option CpuSample)))
    (cycle : SampleCycle (Option CpuSample))
    (unbroken : Unbroken (((CpuPlugin.sampler cpucore).run cycles).1.selfBootstrap cycle.warmUp).prev
      ((CpuPlugin.sampler cpucore).readingsBefore cycles cycle) cycle.main) :
    OwnInterval CpuPlugin.rateCounters none
      ((CpuPlugin.sampler cpucore).readingsBefore cycles cycle) cycle.main
      ((CpuPlugin.sampler cpucore).published cycles cycle) := by
  have tracked := @CpuPlugin.readingsBefore_tracks cpucore cycles cycle
  cases CpuPlugin.collect_collected cpucore ((CpuPlugin.sampler cpucore).run cycles).1 cycle with
  | rated prior cur held taken kept rates =>
      refine .of_held tracked unbroken held taken fun sample same => ?_
      subst same
      exact rates
  | degraded missing kept rates =>
      constructor
      · intro entry listed current value read sampled published
        have absent := (rates entry listed).symm.trans published
        cases absent
      · intro entry listed _
        exact rates entry listed

theorem memswap_own_interval (cycles : List (SampleCycle (Option SwapInfo)))
    (cycle : SampleCycle (Option SwapInfo))
    (unbroken : Unbroken ((MemSwapPlugin.sampler.run cycles).1.selfBootstrap cycle.warmUp).prev
      (MemSwapPlugin.sampler.readingsBefore cycles cycle) cycle.main) :
    OwnInterval MemSwapPlugin.rateCounters (some (.ofF64 0))
      (MemSwapPlugin.sampler.readingsBefore cycles cycle) cycle.main
      (MemSwapPlugin.sampler.published cycles cycle) := by
  have tracked := MemSwapPlugin.readingsBefore_tracked cycles cycle
  cases MemSwapPlugin.collect_collected (MemSwapPlugin.sampler.run cycles).1 cycle with
  | rated counters cur held taken kept rates =>
      exact .of_held tracked.tracks unbroken held taken rates
  | baseline cur unheld taken kept rates =>
      constructor
      · intro entry listed current value read sampled published
        exact absurd (tracked.complete unheld) sampled
      · intro entry listed _
        exact rates entry listed
  | failed failure kept rates =>
      constructor
      · intro entry listed current value read
        rw [failure] at read
        cases read
      · intro entry listed _
        exact rates entry listed

end Scalar

section Collections

variable {crates : Crates}

/-- A step whose items are rates of the two samples makes them rates of the last
two readings. -/
theorem collectItems_intervals {ρ κ : Type} {pkField : String} {sample : ρ → HashMap String κ}
    {step : ρ → HashMap String κ → HashMap String κ → Float → List Json × HashMap String κ}
    {counters : ρ → String → Option κ} {deltas : List (String × (κ → κ → Option UInt64))}
    (current : ∀ value previous current elapsed, (step value previous current elapsed).2 = current)
    (sampled : ∀ value name held, (sample value).lookup name = some held →
      counters value name = some held)
    (items : ∀ value previous current elapsed, ∀ item ∈ (step value previous current elapsed).1,
      ∃ name prior cur, item.get? pkField = some (.string name) ∧
        previous.lookup name = some prior ∧ current.lookup name = some cur ∧
        ∀ entry ∈ deltas, item.get? entry.1 = (entry.2 cur prior).map (Json.ofRate · elapsed))
    (cycles : List (SampleCycle ρ)) (cycle : SampleCycle ρ) :
    ItemIntervals pkField counters deltas
      ((itemSampler (collectItems pkField sample step)).readingsBefore cycles cycle) cycle.main
      ((itemSampler (collectItems pkField sample step)).published cycles cycle) := by
  obtain ⟨first, final, data⟩ := @published_items _ _ pkField sample step current cycles cycle
  refine ⟨_, data, fun item listed => ?_⟩
  obtain ⟨name, prior, cur, key, held, found, rates⟩ := items _ _ _ _ item listed
  exact ⟨first, List.mem_of_getLast? final, name, prior, cur, key, sampled _ _ _ held,
    sampled _ _ _ found, rates⟩

theorem diskio_own_interval (isMatch : crates.Regex → String → Bool)
    (plugin : CollectionPlugin crates)
    (cycles : List (SampleCycle (Option (HashMap String DiskIoCounters))))
    (cycle : SampleCycle (Option (HashMap String DiskIoCounters))) :
    ItemIntervals "disk_name" (fun read name => read.bind fun table => table.lookup name)
      Diskio.rateDeltas ((DiskioPlugin.sampler isMatch plugin).readingsBefore cycles cycle)
      cycle.main ((DiskioPlugin.sampler isMatch plugin).published cycles cycle) := by
  refine collectItems_intervals (fun _ _ _ _ => rfl) (fun read name held found => ?_)
    (fun _ previous current elapsed item listed => ?_) cycles cycle
  · rw [DiskioPlugin.sample, AList.lookup_filterMap] at found
    obtain ⟨counters, tabled, shown⟩ := Option.bind_eq_some_iff.mp found
    split at shown
    · cases shown
      cases read with
      | none => cases tabled
      | some table => exact tabled
    · cases shown
  · obtain ⟨name, prior, cur, held, found, rfl⟩ := mem_stepItems.mp listed
    exact ⟨name, prior, cur, Diskio.item_key, held, found, Diskio.item_rates⟩

theorem network_own_interval (isMatch : crates.Regex → String → Bool)
    (plugin : CollectionPlugin crates) (cycles : List (SampleCycle Network.Tables))
    (cycle : SampleCycle Network.Tables) :
    ItemIntervals "interface_name"
      (fun tables name => (tables.networks.lookup name).map (tables.counters name))
      Network.rateDeltas ((NetworkPlugin.sampler isMatch plugin).readingsBefore cycles cycle)
      cycle.main ((NetworkPlugin.sampler isMatch plugin).published cycles cycle) := by
  refine collectItems_intervals (fun _ _ _ _ => rfl) (fun tables name held found => ?_)
    (fun _ previous current elapsed item listed => ?_) cycles cycle
  · rw [NetworkPlugin.sample, AList.lookup_filterMap] at found
    obtain ⟨data, tabled, shown⟩ := Option.bind_eq_some_iff.mp found
    split at shown
    · cases shown
      rw [tabled, Option.map_some]
    · cases shown
  · obtain ⟨name, prior, cur, held, found, rfl⟩ := mem_stepItems.mp listed
    exact ⟨name, prior, cur, Network.item_key, held, found, Network.item_rates⟩

/-- The rates of all four plugins, over every run: a failed read tells on the next
rate of `cpu` and of `memswap` alone. -/
theorem rates_own_interval (cpucore : UInt64) (isMatch : crates.Regex → String → Bool)
    (plugin : CollectionPlugin crates) :
    (∀ cycles cycle,
      Unbroken (((CpuPlugin.sampler cpucore).run cycles).1.selfBootstrap cycle.warmUp).prev
        ((CpuPlugin.sampler cpucore).readingsBefore cycles cycle) cycle.main →
      OwnInterval CpuPlugin.rateCounters none
        ((CpuPlugin.sampler cpucore).readingsBefore cycles cycle) cycle.main
        ((CpuPlugin.sampler cpucore).published cycles cycle)) ∧
    (∀ cycles cycle,
      Unbroken ((MemSwapPlugin.sampler.run cycles).1.selfBootstrap cycle.warmUp).prev
        (MemSwapPlugin.sampler.readingsBefore cycles cycle) cycle.main →
      OwnInterval MemSwapPlugin.rateCounters (some (.ofF64 0))
        (MemSwapPlugin.sampler.readingsBefore cycles cycle) cycle.main
        (MemSwapPlugin.sampler.published cycles cycle)) ∧
    (∀ cycles cycle,
      ItemIntervals "disk_name" (fun read name => read.bind fun table => table.lookup name)
        Diskio.rateDeltas ((DiskioPlugin.sampler isMatch plugin).readingsBefore cycles cycle)
        cycle.main ((DiskioPlugin.sampler isMatch plugin).published cycles cycle)) ∧
    ∀ cycles cycle,
      ItemIntervals "interface_name"
        (fun tables name => (tables.networks.lookup name).map (tables.counters name))
        Network.rateDeltas ((NetworkPlugin.sampler isMatch plugin).readingsBefore cycles cycle)
        cycle.main ((NetworkPlugin.sampler isMatch plugin).published cycles cycle) :=
  ⟨cpu_own_interval cpucore, memswap_own_interval, diskio_own_interval isMatch plugin,
    network_own_interval isMatch plugin⟩

end Collections

/-- A sample with `switches` context switches and nothing else. -/
def switchesSample (switches : UInt64) : CpuSample :=
  { user := 0, nice := 0, system := 0, idle := 0, iowait := 0, irq := 0, softirq := 0, steal := 0,
    guest := 0, guestNice := 0, ctxt := switches, intr := 0, softirqTotal := 0 }

/-- A cold start at 0 s whose own read, a quarter of a second later, gives `first`. -/
def coldStart (first : Option CpuSample) : SampleCycle (Option CpuSample) where
  warmUp := ⟨0, some (switchesSample 0)⟩
  main := ⟨250000000, first⟩

/-- The next cycle, two seconds on. -/
def nextCycle : SampleCycle (Option CpuSample) where
  warmUp := ⟨0, none⟩
  main := ⟨2250000000, some (switchesSample 9000)⟩

def unfiltered : CollectionPlugin (.ofDocument "" {}) where
  refresh := .fromMillis 2000
  filter := { «show» := [], hide := [] }
  «alias» := ∅

theorem steadyReads_own_interval :
    OwnInterval CpuPlugin.rateCounters none
      ((CpuPlugin.sampler 4).readingsBefore [coldStart (some (switchesSample 1000))] nextCycle)
      nextCycle.main
      ((CpuPlugin.sampler 4).published [coldStart (some (switchesSample 1000))] nextCycle) := by
  refine (rates_own_interval 4 (fun _ _ => false) unfiltered).1 _ _ fun _ _ reading final => ?_
  cases final
  exact Option.some_ne_none _

/-- 9000 switches in 2.25 s are published as 4500 per second, a rate that no two of
the samples give. -/
theorem failedRead_not_own_interval :
    let earlier := (CpuPlugin.sampler 4).readingsBefore [coldStart none] nextCycle
    let payload := (CpuPlugin.sampler 4).published [coldStart none] nextCycle
    (payload.get? "ctx_switches").bind Json.asF64? = some 4500 ∧
      (∀ first ∈ earlier ++ [nextCycle.main], ∀ second ∈ earlier ++ [nextCycle.main],
        ∀ prior ∈ first.value, ∀ cur ∈ second.value,
          perSec (saturatingSubU64 cur.ctxt prior.ctxt) (secondsSince first.instant second.instant) ≠
            4500) ∧
      ¬ OwnInterval CpuPlugin.rateCounters none earlier nextCycle.main payload := by
  intro earlier payload
  have rate : (payload.get? "ctx_switches").bind Json.asF64? = some 4500 := by decide +kernel
  have apart : ∀ first ∈ earlier ++ [nextCycle.main], ∀ second ∈ earlier ++ [nextCycle.main],
      ∀ prior ∈ first.value, ∀ cur ∈ second.value,
        perSec (saturatingSubU64 cur.ctxt prior.ctxt) (secondsSince first.instant second.instant) ≠
          4500 := by
    decide +kernel
  refine ⟨rate, apart, fun own => ?_⟩
  obtain ⟨value, published, number⟩ := Option.bind_eq_some_iff.mp rate
  obtain ⟨first, inside, prior, success, rfl⟩ :=
    own.rated ("ctx_switches", CpuSample.ctxt) List.mem_cons_self _ value rfl (by decide) published
  refine apart first (List.mem_append_left _ inside) nextCycle.main (by simp) prior success
    (switchesSample 9000) rfl ?_
  exact Json.ofF64_asF64? number

end GlancesRs
