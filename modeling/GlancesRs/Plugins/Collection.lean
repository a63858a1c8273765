import GlancesRs.Data.KeyedMap
import GlancesRs.Data.Sampler
import GlancesRs.Plugins.Rates
import Mathlib.Data.List.Sort

namespace GlancesRs

open Data

/-! What the two collection plugins with rates share: one item per key that the
last and the current sample both have. -/

variable {ρ κ : Type}

/-- `a.as_str().cmp(&b.as_str())` is not `Greater`. -/
def keyLe : Option String → Option String → Bool
  | none, _ => true
  | some _, none => false
  | some left, some right => left ≤ right

def Data.Json.asStr? : Json → Option String
  | .string text => some text
  | _ => none

def itemKey (pkField : String) (item : Json) : Option String := (item.get? pkField).bind Json.asStr?

def sortItems (pkField : String) (items : List Json) : List Json :=
  items.insertionSort fun left right => keyLe (itemKey pkField left) (itemKey pkField right)

/-- One rate step; the state it returns is the current sample alone. -/
def stepItems (pkField : String) (item : String → κ → κ → Json) (previous current : HashMap String κ) :
    List Json × HashMap String κ :=
  let items := current.entries.filterMap fun entry =>
    (previous.lookup entry.1).map fun prev => item entry.1 prev entry.2
  (sortItems pkField items, current)

structure ItemState (κ : Type) where
  previous : HashMap String κ := ∅
  last : Option Instant := none

/-- Cold path only: a baseline sample, so that the first response carries real rates. -/
def ItemState.selfBootstrap (sample : ρ → HashMap String κ) (state : ItemState κ)
    (baseline : Reading ρ) : ItemState κ :=
  if state.last.isNone then { previous := sample baseline.value, last := some baseline.instant }
  else state

/-- `sample` filters the table read, before any rate is computed. -/
def collectItems (pkField : String) (sample : ρ → HashMap String κ)
    (step : ρ → HashMap String κ → HashMap String κ → Float → List Json × HashMap String κ)
    (state : ItemState κ) (cycle : SampleCycle ρ) : ItemState κ × Json :=
  let state := state.selfBootstrap sample cycle.warmUp
  let now := cycle.main.instant
  -- the default never counts: `last` is set on the cold path
  let elapsed := secondsSince (state.last.getD now) now
  let stepped := step cycle.main.value state.previous (sample cycle.main.value) elapsed
  ({ previous := stepped.2, last := some now }, envelopeKeyed stepped.1 elapsed pkField)

def itemSampler (collect : ItemState κ → SampleCycle ρ → ItemState κ × Json) :
    Sampler (ItemState κ) ρ Json where
  init := {}
  cold state := state.last.isNone
  collect := collect

/-- What is divided by the interval for the rate of one counter. -/
def counterDelta (counter : κ → UInt64) (cur prev : κ) : Option UInt64 :=
  some (saturatingSubU64 (counter cur) (counter prev))

theorem mem_stepItems {pkField : String} {item : String → κ → κ → Json}
    {previous current : HashMap String κ} {shown : Json} :
    shown ∈ (stepItems pkField item previous current).1 ↔ ∃ name prev cur,
      previous.lookup name = some prev ∧ current.lookup name = some cur ∧
      shown = item name prev cur := by
  rw [stepItems, sortItems, List.mem_insertionSort, List.mem_filterMap]
  constructor
  · intro listed
    obtain ⟨⟨name, cur⟩, inside, made⟩ := listed
    obtain ⟨prev, held, rfl⟩ := Option.map_eq_some_iff.mp made
    exact ⟨name, prev, cur, held, AList.mem_lookup_iff.mpr inside, rfl⟩
  · intro both
    obtain ⟨name, prev, cur, held, found, rfl⟩ := both
    exact ⟨⟨name, cur⟩, AList.mem_lookup_iff.mp found, by simp [held]⟩

theorem envelopeKeyed_data (items : List Json) (timeSinceUpdate : Float) (key : String) :
    (envelopeKeyed items timeSinceUpdate key).get? "data" = some (.array items) := by
  simp only [envelopeKeyed, envelope, Json.get?_object]
  rw [lookup_insertMember_of_ne (by decide), lookup_insertMember_of_ne (by decide),
    lookup_insertMember_of_ne (by decide)]
  rfl

section Runs

variable {pkField : String} {sample : ρ → HashMap String κ}
variable {step : ρ → HashMap String κ → HashMap String κ → Float → List Json × HashMap String κ}
variable {state : ItemState κ} {log : List (Reading ρ)} {cycle : SampleCycle ρ}

/-- What the state keeps is of the last reading, whatever came of it. -/
structure KeepsLast (sample : ρ → HashMap String κ) (state : ItemState κ) (log : List (Reading ρ)) :
    Prop where
  last : state.last = log.getLast?.map Reading.instant
  previous : ∀ reading ∈ log.getLast?, state.previous = sample reading.value

theorem KeepsLast.snoc (reading : Reading ρ) :
    KeepsLast sample { previous := sample reading.value, last := some reading.instant }
      (log ++ [reading]) :=
  ⟨by simp, fun final inside => by
    rw [List.getLast?_concat] at inside
    cases inside
    rfl⟩

theorem selfBootstrap_last (state : ItemState κ) (baseline : Reading ρ) :
    (state.selfBootstrap sample baseline).last ≠ none := by
  rw [ItemState.selfBootstrap]
  split
  · exact Option.some_ne_none _
  · rename_i warm
    simpa using warm

theorem selfBootstrap_keepsLast (keeps : KeepsLast sample state log) :
    KeepsLast sample (state.selfBootstrap sample cycle.warmUp)
      ((itemSampler (collectItems pkField sample step)).earlier state log cycle) := by
  rw [ItemState.selfBootstrap, Sampler.earlier, itemSampler]
  split
  · exact .snoc cycle.warmUp
  · exact keeps

variable (current : ∀ value previous current elapsed,
  (step value previous current elapsed).2 = current)

include current

theorem run_keepsLast (cycles : List (SampleCycle ρ)) :
    KeepsLast sample ((itemSampler (collectItems pkField sample step)).run cycles).1
      ((itemSampler (collectItems pkField sample step)).run cycles).2 := by
  refine @Sampler.run_invariant _ _ _ (itemSampler (collectItems pkField sample step))
    (KeepsLast sample) ⟨rfl, fun reading impossible => by cases impossible⟩
    (fun state log cycle keeps => ?_) cycles
  have kept : (collectItems pkField sample step state cycle).1 =
      { previous := sample cycle.main.value, last := some cycle.main.instant } := by
    simp only [collectItems, current]
  change KeepsLast sample (collectItems pkField sample step state cycle).1 _
  rw [kept]
  exact .snoc cycle.main

/-- The items of a cycle are the step from the reading made directly before it. -/
theorem published_items (cycles : List (SampleCycle ρ)) (cycle : SampleCycle ρ) :
    ∃ first ∈ ((itemSampler (collectItems pkField sample step)).readingsBefore cycles cycle).getLast?,
      ((itemSampler (collectItems pkField sample step)).published cycles cycle).get? "data" =
        some (.array (step cycle.main.value (sample first.value) (sample cycle.main.value)
          (secondsSince first.instant cycle.main.instant)).1) := by
  have warmed := @selfBootstrap_keepsLast _ _ pkField sample step _ _ cycle
    (@run_keepsLast _ _ pkField _ _ current cycles)
  change KeepsLast sample _
    ((itemSampler (collectItems pkField sample step)).readingsBefore cycles cycle) at warmed
  have last := warmed.last
  cases final : ((itemSampler (collectItems pkField sample step)).readingsBefore cycles
      cycle).getLast? with
  | none =>
      rw [final, Option.map_none] at last
      exact absurd last (selfBootstrap_last _ _)
  | some first =>
      refine ⟨first, rfl, ?_⟩
      rw [final, Option.map_some] at last
      change (collectItems pkField sample step _ cycle).2.get? "data" = _
      simp only [collectItems]
      rw [envelopeKeyed_data, last, Option.getD_some, warmed.previous first final]

end Runs

end GlancesRs
