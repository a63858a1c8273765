import GlancesRs.Data.Sampler
import GlancesRs.Plugins.Rates

namespace GlancesRs

open Data

/-! The `cpu` plugin on Linux: percentages and rates of two `/proc/stat` samples. -/

/-- Cumulative jiffies of the aggregate `cpu` line, and the event counters. -/
structure CpuSample where
  user : UInt64
  nice : UInt64
  system : UInt64
  idle : UInt64
  iowait : UInt64
  irq : UInt64
  softirq : UInt64
  steal : UInt64
  guest : UInt64
  guestNice : UInt64
  ctxt : UInt64
  intr : UInt64
  softirqTotal : UInt64
deriving DecidableEq

structure CpuPercents (κ : Type) where
  total : κ
  user : κ
  nice : κ
  system : κ
  idle : κ
  iowait : κ
  irq : κ
  steal : κ
  guest : κ

/-- `cpu_percents` over any numbers: counters enter through `cast` and
percentages leave through `round`. -/
def cpuPercents {κ : Type} [Add κ] [Sub κ] [Mul κ] [Div κ] [Max κ] [LE κ] [DecidableLE κ]
    [OfNat κ 0] [OfNat κ 100] (cast : UInt64 → κ) (round : κ → κ) (prev cur : CpuSample) :
    CpuPercents κ :=
  let delta (counter : CpuSample → UInt64) : κ :=
    cast (saturatingSubU64 (counter cur) (counter prev))
  let user := delta CpuSample.user
  let nice := delta CpuSample.nice
  let system := delta CpuSample.system
  let idle := delta CpuSample.idle
  let iowait := delta CpuSample.iowait
  let irq := delta CpuSample.irq
  let softirq := delta CpuSample.softirq
  let steal := delta CpuSample.steal
  let guest := delta CpuSample.guest
  let guestNice := delta CpuSample.guestNice
  let total := user + nice + system + idle + iowait + irq + softirq + steal
  if total ≤ 0 then
    { total := 0, user := 0, nice := 0, system := 0, idle := 0, iowait := 0, irq := 0, steal := 0,
      guest := 0 }
  else
    let pct (x : κ) : κ := round (x / total * 100)
    { total := round ((total - idle) / total * 100)
      user := pct (max (user - guest) 0)
      nice := pct (max (nice - guestNice) 0)
      system := pct system
      idle := pct idle
      iowait := pct iowait
      irq := pct irq
      steal := pct steal
      guest := pct guest }

/-- The previous cumulative sample and the timestamp it was taken at. -/
structure CpuState where
  last : Option Instant := none
  prev : Option CpuSample := none

/-- Cold path only: a baseline sample, so that the first diff spans a real interval. -/
def CpuState.selfBootstrap (state : CpuState) (baseline : Reading (Option CpuSample)) : CpuState :=
  if state.prev.isNone then { prev := baseline.value, last := some baseline.instant } else state

def CpuPlugin.collect (cpucore : UInt64) (state : CpuState)
    (cycle : SampleCycle (Option CpuSample)) : CpuState × Json :=
  let state := state.selfBootstrap cycle.warmUp
  let now := cycle.main.instant
  let elapsed := secondsSince (state.last.getD now) now
  match state.prev, cycle.main.value with
  | some prev, some cur =>
      let p := cpuPercents UInt64.toFloat round1 prev cur
      ({ prev := some cur, last := some now },
        envelope (.object (jsonMembers
          [ ("total", .ofF64 p.total),
            ("user", .ofF64 p.user),
            ("system", .ofF64 p.system),
            ("idle", .ofF64 p.idle),
            ("nice", .ofF64 p.nice),
            ("iowait", .ofF64 p.iowait),
            ("irq", .ofF64 p.irq),
            ("steal", .ofF64 p.steal),
            ("guest", .ofF64 p.guest),
            ("ctx_switches", .ofRate (saturatingSubU64 cur.ctxt prev.ctxt) elapsed),
            ("interrupts", .ofRate (saturatingSubU64 cur.intr prev.intr) elapsed),
            ("soft_interrupts",
              .ofRate (saturatingSubU64 cur.softirqTotal prev.softirqTotal) elapsed),
            ("syscalls", .ofF64 0),
            ("cpucore", .ofU64 cpucore) ])) elapsed)
  | prev, _ =>
      -- an unreadable /proc/stat degrades the payload; the timestamp moves on all the same
      ({ prev, last := some now }, envelope (.object [("cpucore", .ofU64 cpucore)]) elapsed)

def CpuPlugin.sampler (cpucore : UInt64) : Sampler CpuState (Option CpuSample) Json where
  init := {}
  cold state := state.prev.isNone
  collect := CpuPlugin.collect cpucore

namespace CpuPlugin

/-- The cumulative counters published as rates. -/
def rateCounters : List (String × (CpuSample → UInt64)) :=
  [("ctx_switches", CpuSample.ctxt), ("interrupts", CpuSample.intr),
    ("soft_interrupts", CpuSample.softirqTotal)]

variable {cpucore : UInt64} {state : CpuState} {log : List (Reading (Option CpuSample))}
variable {cycle : SampleCycle (Option CpuSample)} {prior cur : CpuSample}

/-- What one cycle publishes as rates, and what it keeps. -/
inductive Collected (state : CpuState) (cycle : SampleCycle (Option CpuSample))
    (after : CpuState) (payload : Json) : Prop
  | rated (prior cur : CpuSample) (held : (state.selfBootstrap cycle.warmUp).prev = some prior)
      (taken : cycle.main.value = some cur)
      (kept : after = { prev := some cur, last := some cycle.main.instant })
      (rates : ∀ entry ∈ rateCounters, payload.get? entry.1 =
        some (.ofRate (saturatingSubU64 (entry.2 cur) (entry.2 prior))
          (secondsSince ((state.selfBootstrap cycle.warmUp).last.getD cycle.main.instant)
            cycle.main.instant)))
  | degraded
      (missing : (state.selfBootstrap cycle.warmUp).prev = none ∨ cycle.main.value = none)
      (kept : after = { prev := (state.selfBootstrap cycle.warmUp).prev,
                        last := some cycle.main.instant })
      (rates : ∀ entry ∈ rateCounters, payload.get? entry.1 = none)

theorem collect_collected (cpucore : UInt64) (state : CpuState)
    (cycle : SampleCycle (Option CpuSample)) :
    Collected state cycle (collect cpucore state cycle).1 (collect cpucore state cycle).2 := by
  simp only [collect]
  split
  · rename_i prior cur held taken
    refine .rated prior cur held taken rfl ?_
    simp [rateCounters, envelope_get?, List.lookup_cons]
  · rename_i missing
    refine .degraded ?_ rfl ?_
    · cases held : (state.selfBootstrap cycle.warmUp).prev with
      | none => exact .inl rfl
      | some prior =>
          cases taken : cycle.main.value with
          | none => exact .inr rfl
          | some cur => exact absurd taken (missing prior cur held)
    · simp [rateCounters, envelope_get?, List.lookup_cons]

theorem selfBootstrap_tracks (tracked : Tracks id state.prev state.last log) :
    Tracks id (state.selfBootstrap cycle.warmUp).prev (state.selfBootstrap cycle.warmUp).last
      ((sampler cpucore).earlier state log cycle) := by
  rw [CpuState.selfBootstrap, Sampler.earlier, sampler]
  split
  · have taken : Tracks id (cycle.warmUp.value.map id) (some cycle.warmUp.instant)
        (log ++ [cycle.warmUp]) := .taken
    simpa using taken
  · exact tracked

theorem run_tracks (cycles : List (SampleCycle (Option CpuSample))) :
    Tracks id ((sampler cpucore).run cycles).1.prev ((sampler cpucore).run cycles).1.last
      ((sampler cpucore).run cycles).2 := by
  refine @Sampler.run_invariant _ _ _ (sampler cpucore)
    (fun state log => Tracks id state.prev state.last log) .initial
    (fun state log cycle tracked => ?_) cycles
  have warmed := @selfBootstrap_tracks cpucore state log cycle tracked
  change Tracks id (collect cpucore state cycle).1.prev (collect cpucore state cycle).1.last _
  cases collect_collected cpucore state cycle with
  | rated prior cur held taken kept rates =>
      rw [kept]
      have paired : Tracks id (cycle.main.value.map id) (some cycle.main.instant)
          ((sampler cpucore).earlier state log cycle ++ [cycle.main]) := .taken
      simpa [taken] using paired
  | degraded missing kept rates =>
      rw [kept]
      rcases missing with unheld | failure
      · rw [unheld]
        exact .forgotten
      · exact warmed.failed failure

theorem readingsBefore_tracks (cycles : List (SampleCycle (Option CpuSample)))
    (cycle : SampleCycle (Option CpuSample)) :
    Tracks id (((sampler cpucore).run cycles).1.selfBootstrap cycle.warmUp).prev
      (((sampler cpucore).run cycles).1.selfBootstrap cycle.warmUp).last
      ((sampler cpucore).readingsBefore cycles cycle) :=
  selfBootstrap_tracks (run_tracks cycles)

end CpuPlugin

end GlancesRs
