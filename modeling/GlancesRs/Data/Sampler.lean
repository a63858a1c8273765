import Mathlib.Algebra.BigOperators.Intervals
import Mathlib.Data.List.Induction

namespace GlancesRs.Data

/-! Cumulative counters read again and again, and rates taken between readings.
A sampler that keeps the last sample and the last instant in two places has them
of one reading only as long as it moves them together. -/

structure Reading (ρ : Type) where
  instant : ℕ
  value : ρ

/-- What one cycle can read: a baseline, on the cold path only, and its own sample. -/
structure SampleCycle (ρ : Type) where
  warmUp : Reading ρ
  main : Reading ρ

structure Sampler (σ ρ β : Type) where
  init : σ
  cold : σ → Bool
  collect : σ → SampleCycle ρ → σ × β

namespace Sampler

variable {σ ρ β : Type} (sampler : Sampler σ ρ β)

/-- The readings made before a cycle's own one. -/
def earlier (state : σ) (log : List (Reading ρ)) (cycle : SampleCycle ρ) : List (Reading ρ) :=
  if sampler.cold state then log ++ [cycle.warmUp] else log

def step (current : σ × List (Reading ρ)) (cycle : SampleCycle ρ) : σ × List (Reading ρ) :=
  ((sampler.collect current.1 cycle).1, sampler.earlier current.1 current.2 cycle ++ [cycle.main])

/-- The state a run leaves and all the readings made on the way. -/
def run (cycles : List (SampleCycle ρ)) : σ × List (Reading ρ) :=
  cycles.foldl sampler.step (sampler.init, [])

def readingsBefore (cycles : List (SampleCycle ρ)) (cycle : SampleCycle ρ) : List (Reading ρ) :=
  sampler.earlier (sampler.run cycles).1 (sampler.run cycles).2 cycle

def published (cycles : List (SampleCycle ρ)) (cycle : SampleCycle ρ) : β :=
  (sampler.collect (sampler.run cycles).1 cycle).2

theorem run_snoc (cycles : List (SampleCycle ρ)) (cycle : SampleCycle ρ) :
    sampler.run (cycles ++ [cycle]) =
      ((sampler.collect (sampler.run cycles).1 cycle).1,
        sampler.readingsBefore cycles cycle ++ [cycle.main]) := by
  rw [run, List.foldl_append, List.foldl_cons, List.foldl_nil]
  rfl

variable {sampler} {kept : σ → List (Reading ρ) → Prop}

theorem run_invariant (initial : kept sampler.init [])
    (preserved : ∀ state log cycle, kept state log →
      kept (sampler.collect state cycle).1 (sampler.earlier state log cycle ++ [cycle.main]))
    (cycles : List (SampleCycle ρ)) : kept (sampler.run cycles).1 (sampler.run cycles).2 := by
  induction cycles using List.reverseRecOn with
  | nil => exact initial
  | append_singleton cycles cycle ih =>
      rw [run_snoc]
      exact preserved _ _ cycle ih

end Sampler

section Tracking

variable {α β : Type} {view : α → β} {prev : Option β} {last : Option ℕ} {held : β} {sample : α}
variable {log : List (Reading (Option α))} {reading : Reading (Option α)}

/-- The sample of the last reading that succeeded. -/
def latest (log : List (Reading (Option α))) : Option α := (log.filterMap Reading.value).getLast?

@[simp] theorem latest_nil : latest ([] : List (Reading (Option α))) = none := rfl

@[simp] theorem latest_snoc : latest (log ++ [reading]) = reading.value.or (latest log) := by
  rw [latest, List.filterMap_append]
  cases taken : reading.value <;> simp [taken, latest]

theorem latest_of_getLast? (final : log.getLast? = some reading) (taken : reading.value = some sample) :
    latest log = some sample := by
  obtain ⟨earlier, rfl⟩ := List.getLast?_eq_some_iff.mp final
  simp [taken]

/-- The reading made last did not fail. -/
def EndsInSample (log : List (Reading (Option α))) : Prop :=
  ∀ reading ∈ log.getLast?, reading.value ≠ none

theorem EndsInSample.exists_final (ends : EndsInSample log) (sampled : latest log ≠ none) :
    ∃ reading sample, log.getLast? = some reading ∧ reading.value = some sample := by
  cases final : log.getLast? with
  | none =>
      rw [List.getLast?_eq_none_iff.mp final] at sampled
      exact absurd latest_nil sampled
  | some reading =>
      cases taken : reading.value with
      | none => exact absurd taken (ends reading final)
      | some sample => exact ⟨reading, sample, rfl, taken⟩

/-- The instant kept is that of the last reading; a sample held is the last one
taken, so far as `view` shows it. -/
structure Tracks (view : α → β) (prev : Option β) (last : Option ℕ)
    (log : List (Reading (Option α))) : Prop where
  instant : last = log.getLast?.map Reading.instant
  sample : ∀ held ∈ prev, (latest log).map view = some held

theorem Tracks.initial : Tracks view none none [] :=
  ⟨rfl, fun held impossible => by cases impossible⟩

/-- A failed reading moves the instant alone. -/
theorem Tracks.failed (tracked : Tracks view prev last log) (failure : reading.value = none) :
    Tracks view prev (some reading.instant) (log ++ [reading]) :=
  ⟨by simp, fun held inside => by simp [failure, tracked.sample held inside]⟩

theorem Tracks.taken : Tracks view (reading.value.map view) (some reading.instant) (log ++ [reading]) :=
  ⟨by simp, fun held inside => by
    obtain ⟨sample, success, rfl⟩ := Option.map_eq_some_iff.mp inside
    simp [success]⟩

theorem Tracks.forgotten : Tracks view none (some reading.instant) (log ++ [reading]) :=
  ⟨by simp, fun held impossible => by cases impossible⟩

theorem Tracks.sampled (tracked : Tracks view prev last log) (kept : prev = some held) :
    latest log ≠ none := by
  intro unsampled
  have newest := tracked.sample held kept
  rw [unsampled] at newest
  cases newest

/-- Right after a success the sample and the instant are of one reading. -/
theorem Tracks.paired (tracked : Tracks view prev last log) (ends : EndsInSample log)
    (kept : prev = some held) :
    ∃ reading ∈ log, ∃ sample, reading.value = some sample ∧ held = view sample ∧
      last = some reading.instant := by
  obtain ⟨reading, sample, final, taken⟩ := ends.exists_final (tracked.sampled kept)
  have newest := tracked.sample held kept
  rw [latest_of_getLast? final taken, Option.map_some, Option.some.injEq] at newest
  exact ⟨reading, List.mem_of_getLast? final, sample, taken, newest.symm,
    by rw [tracked.instant, final, Option.map_some]⟩

end Tracking

/-- The differences of a counter that does not go back add up to how far it went. -/
theorem sum_differences {values : ℕ → ℕ} {first last : ℕ} (ordered : first ≤ last)
    (rising : ∀ i, first ≤ i → i < last → values i ≤ values (i + 1)) :
    values first ≤ values last ∧
      ∑ i ∈ Finset.Ico first last, (values (i + 1) - values i) = values last - values first := by
  induction last, ordered using Nat.le_induction with
  | base => simp
  | succ last ordered ih =>
      have earlier := ih fun i after before => rising i after (by omega)
      have step := rising last ordered (by omega)
      rw [Finset.sum_Ico_succ_top ordered, earlier.2]
      omega

end GlancesRs.Data
