import GlancesRs.Data.Sampler
import GlancesRs.Plugins.Rates

namespace GlancesRs

open Data

/-! The `memswap` plugin on Linux: swap usage, and rates of the bytes swapped in
and out. -/

structure SwapInfo where
  total : UInt64
  used : UInt64
  free : UInt64
  percent : Float
  sin : UInt64
  sout : UInt64

/-- `prev` is the previous cumulative `(sin, sout)`. -/
structure MemSwapState where
  prev : Option (UInt64 × UInt64) := none
  last : Option Instant := none

def swapRates (prev cur : UInt64 × UInt64) (elapsed : Float) : Float × Float :=
  (perSec (saturatingSubU64 cur.1 prev.1) elapsed, perSec (saturatingSubU64 cur.2 prev.2) elapsed)

def SwapInfo.counters (s : SwapInfo) : UInt64 × UInt64 := (s.sin, s.sout)

/-- Cold path only: a baseline, so that the first response carries a real rate. -/
def MemSwapState.selfBootstrap (state : MemSwapState) (baseline : Reading (Option SwapInfo)) :
    MemSwapState :=
  if state.last.isNone then
    { prev := baseline.value.map SwapInfo.counters, last := some baseline.instant }
  else state

def MemSwapPlugin.collect (state : MemSwapState) (cycle : SampleCycle (Option SwapInfo)) :
    MemSwapState × Json :=
  let state := state.selfBootstrap cycle.warmUp
  let now := cycle.main.instant
  -- the default never counts: `last` is set on the cold path
  let elapsed := secondsSince (state.last.getD now) now
  match cycle.main.value with
  | none =>
      ({ state with last := some now },
        envelope (.object (jsonMembers
          [ ("total", .ofU64 0),
            ("used", .ofU64 0),
            ("free", .ofU64 0),
            ("percent", .ofF64 0),
            ("sin", .ofF64 0),
            ("sout", .ofF64 0) ])) elapsed)
  | some s =>
      let rates :=
        match state.prev with
        | some prev => swapRates prev s.counters elapsed
        | none => (0, 0)
      ({ prev := some s.counters, last := some now },
        envelope (.object (jsonMembers
          [ ("total", .ofU64 s.total),
            ("used", .ofU64 s.used),
            ("free", .ofU64 s.free),
            ("percent", .ofF64 s.percent),
            ("sin", .ofF64 rates.1),
            ("sout", .ofF64 rates.2) ])) elapsed)

def MemSwapPlugin.sampler : Sampler MemSwapState (Option SwapInfo) Json where
  init := {}
  cold state := state.last.isNone
  collect := MemSwapPlugin.collect

namespace MemSwapPlugin

/-- The cumulative counters published as rates. -/
def rateCounters : List (String × (SwapInfo → UInt64)) :=
  [("sin", SwapInfo.sin), ("sout", SwapInfo.sout)]

variable {state : MemSwapState} {log : List (Reading (Option SwapInfo))}
variable {cycle : SampleCycle (Option SwapInfo)}

/-- What one cycle publishes as rates, and what it keeps. -/
inductive Collected (state : MemSwapState) (cycle : SampleCycle (Option SwapInfo))
    (after : MemSwapState) (payload : Json) : Prop
  | rated (counters : UInt64 × UInt64) (cur : SwapInfo)
      (held : (state.selfBootstrap cycle.warmUp).prev = some counters)
      (taken : cycle.main.value = some cur)
      (kept : after = { prev := some cur.counters, last := some cycle.main.instant })
      (rates : ∀ prior : SwapInfo, counters = prior.counters → ∀ entry ∈ rateCounters,
        payload.get? entry.1 =
          some (.ofRate (saturatingSubU64 (entry.2 cur) (entry.2 prior))
            (secondsSince ((state.selfBootstrap cycle.warmUp).last.getD cycle.main.instant)
              cycle.main.instant)))
  | baseline (cur : SwapInfo) (unheld : (state.selfBootstrap cycle.warmUp).prev = none)
      (taken : cycle.main.value = some cur)
      (kept : after = { prev := some cur.counters, last := some cycle.main.instant })
      (rates : ∀ entry ∈ rateCounters, payload.get? entry.1 = some (.ofF64 0))
  | failed (failure : cycle.main.value = none)
      (kept : after = { prev := (state.selfBootstrap cycle.warmUp).prev,
                        last := some cycle.main.instant })
      (rates : ∀ entry ∈ rateCounters, payload.get? entry.1 = some (.ofF64 0))

theorem collect_collected (state : MemSwapState) (cycle : SampleCycle (Option SwapInfo)) :
    Collected state cycle (collect state cycle).1 (collect state cycle).2 := by
  simp only [collect]
  cases taken : cycle.main.value with
  | none =>
      refine .failed taken rfl ?_
      simp [rateCounters, envelope_get?, List.lookup_cons]
  | some cur =>
      cases held : (state.selfBootstrap cycle.warmUp).prev with
      | none =>
          refine .baseline cur held taken rfl ?_
          simp [rateCounters, envelope_get?, List.lookup_cons]
      | some counters =>
          refine .rated counters cur held taken rfl fun prior same => ?_
          subst same
          simp [rateCounters, envelope_get?, List.lookup_cons, swapRates, SwapInfo.counters,
            Json.ofRate]

/-- What the state knows of the readings made: it also holds a sample as soon as
one has been taken. -/
structure Tracked (state : MemSwapState) (log : List (Reading (Option SwapInfo))) : Prop where
  tracks : Tracks SwapInfo.counters state.prev state.last log
  complete : state.prev = none → latest log = none

theorem selfBootstrap_tracked (tracked : Tracked state log) :
    Tracked (state.selfBootstrap cycle.warmUp) (sampler.earlier state log cycle) := by
  rw [MemSwapState.selfBootstrap, Sampler.earlier, sampler]
  split
  · rename_i cold
    refine ⟨.taken, fun unheld => ?_⟩
    have unread : log = [] := by
      rw [Option.isNone_iff_eq_none, tracked.tracks.instant, Option.map_eq_none_iff,
        List.getLast?_eq_none_iff] at cold
      exact cold
    rw [Option.map_eq_none_iff] at unheld
    rw [latest_snoc, unheld, unread]
    rfl
  · exact tracked

theorem run_tracked (cycles : List (SampleCycle (Option SwapInfo))) :
    Tracked (sampler.run cycles).1 (sampler.run cycles).2 := by
  refine @Sampler.run_invariant _ _ _ sampler Tracked ⟨.initial, fun _ => latest_nil⟩
    (fun state log cycle tracked => ?_) cycles
  have warmed := @selfBootstrap_tracked state log cycle tracked
  change Tracked (collect state cycle).1 _
  have success {cur : SwapInfo} (taken : cycle.main.value = some cur) :
      Tracked { prev := some cur.counters, last := some cycle.main.instant }
        (sampler.earlier state log cycle ++ [cycle.main]) := by
    have paired : Tracks SwapInfo.counters (cycle.main.value.map SwapInfo.counters)
        (some cycle.main.instant) (sampler.earlier state log cycle ++ [cycle.main]) := .taken
    exact ⟨by simpa [taken] using paired, fun impossible => by cases impossible⟩
  cases collect_collected state cycle with
  | rated counters cur held taken kept rates =>
      rw [kept]
      exact success taken
  | baseline cur unheld taken kept rates =>
      rw [kept]
      exact success taken
  | failed failure kept rates =>
      rw [kept]
      exact ⟨warmed.tracks.failed failure, fun unheld => by simp [failure, warmed.complete unheld]⟩

theorem readingsBefore_tracked (cycles : List (SampleCycle (Option SwapInfo)))
    (cycle : SampleCycle (Option SwapInfo)) :
    Tracked ((sampler.run cycles).1.selfBootstrap cycle.warmUp)
      (sampler.readingsBefore cycles cycle) :=
  selfBootstrap_tracked (run_tracked cycles)

end MemSwapPlugin

end GlancesRs
