import GlancesRs.Alerts.Reconcile
import GlancesRs.Data.Stretch

namespace GlancesRs

open Data

/-! `reconcile` over a whole trace of observations, against the declarative
reading of a debouncer: how long the observed level has lasted. -/

/-- One observation, after the idle-gap reset when there is one. -/
def AlertState.feed (minDuration : Duration) (state : AlertState) (sample : Sample Level Instant) :
    Option (AlertState × Option Transition) :=
  reconcile (if sample.reset then state.clearPending else state) sample.level sample.now minDuration

def reconcileTrace (minDuration : Duration) (state : AlertState) :
    List (Sample Level Instant) → Option (AlertState × List (Option Transition))
  | [] => some (state, [])
  | sample :: later => do
      let (state, transition) ← state.feed minDuration sample
      let (state, transitions) ← reconcileTrace minDuration state later
      return (state, transition :: transitions)

/-- The level in force after these results: the last one committed. -/
def levelAfter (transitions : List (Option Transition)) : Level :=
  (transitions.reduceOption.getLast?.map Transition.new).getD .ok

variable {state : AlertState} {minDuration : Duration} {sample first : Sample Level Instant}
variable {samples earlier rest : List (Sample Level Instant)} {transitions : List (Option Transition)}

theorem AlertState.Coherent.feed_refines (coherent : state.Coherent) (minDuration : Duration)
    (sample : Sample Level Instant) :
    ∃ next transition, state.feed minDuration sample = some (next, transition) ∧ next.Coherent ∧
      state.debouncer.advance (elapsed minDuration) sample =
        (next.debouncer, transition.map Transition.change) := by
  rw [AlertState.feed, Debouncer.advance]
  cases sample.reset with
  | true => exact reconcile_refines AlertState.coherent_clearPending sample.level sample.now minDuration
  | false => exact reconcile_refines coherent sample.level sample.now minDuration

/-- A trace never panics, and is a trace of the debouncer. -/
theorem reconcileTrace_refines (coherent : state.Coherent) (minDuration : Duration)
    (samples : List (Sample Level Instant)) :
    ∃ last transitions, reconcileTrace minDuration state samples = some (last, transitions) ∧
      last.Coherent ∧
      state.debouncer.trace (elapsed minDuration) samples =
        (last.debouncer, transitions.map (Option.map Transition.change)) := by
  induction samples generalizing state with
  | nil => exact ⟨state, [], rfl, coherent, rfl⟩
  | cons sample samples ih =>
      obtain ⟨middle, transition, fed, ready, advanced⟩ := coherent.feed_refines minDuration sample
      obtain ⟨last, transitions, traced, final, refined⟩ := ih ready
      refine ⟨last, transition :: transitions, by simp [reconcileTrace, fed, traced], final, ?_⟩
      simp [Debouncer.trace, advanced, refined]

theorem levelAfter_eq (transitions : List (Option Transition)) :
    Debouncer.committedAfter .ok (transitions.map (Option.map Transition.change)) =
      levelAfter transitions := by
  have reduced : (transitions.map (Option.map Transition.change)).reduceOption =
      transitions.reduceOption.map Transition.change := by
    simp [List.reduceOption, List.filterMap_map, List.map_filterMap]
  rw [Debouncer.committedAfter, reduced, List.getLast?_map, Option.map_map]
  rfl

/-- `reconcile` fed from the default state commits the observed level exactly
when it differs from the one in force and its longest stretch, from `first` on,
has lasted `min_duration`; a transition is initial when nothing was committed and
no `ok` was observed before. As `duration_since` does, the difference stops at
zero. -/
theorem reconcile_reference (minDuration : Duration) (earlier : List (Sample Level Instant))
    (sample : Sample Level Instant) :
    ∃ first rest, LongestStretch (earlier ++ [sample]) (first :: rest) ∧
    ∃ state transitions next transition,
      reconcileTrace minDuration {} earlier = some (state, transitions) ∧
      state.feed minDuration sample = some (next, transition) ∧
      state.committedLevel = levelAfter transitions ∧
      (transition.isSome = true ↔
        sample.level ≠ levelAfter transitions ∧ minDuration.nanos ≤ sample.now - first.now) ∧
      ∀ tr ∈ transition, tr.previous = levelAfter transitions ∧ tr.new = sample.level ∧
        (tr.isInitial = true ↔
          (∀ earlierResult ∈ transitions, earlierResult = none) ∧
            ∀ observation ∈ earlier, observation.level ≠ .ok) := by
  obtain ⟨first, rest, longest⟩ := Debouncer.exists_longest earlier sample
  obtain ⟨state, transitions, traced, coherent, refined⟩ :=
    reconcileTrace_refines AlertState.coherent_default minDuration earlier
  obtain ⟨next, transition, fed, _, advanced⟩ := coherent.feed_refines minDuration sample
  have follows : Debouncer.Follows (elapsed minDuration) Level.ok earlier _ _ :=
    Debouncer.trace_follows earlier
  rw [AlertState.debouncer_default] at refined
  simp only [refined] at follows
  have level : state.committedLevel = levelAfter transitions :=
    follows.committed.trans (levelAfter_eq transitions)
  have unsettled : state.hasCommitted = false ↔
      (∀ earlierResult ∈ transitions, earlierResult = none) ∧
        ∀ observation ∈ earlier, observation.level ≠ .ok := by
    have settled : state.hasCommitted = true ↔ _ := follows.settled
    rw [← Bool.not_eq_true, settled, not_or]
    simp only [List.mem_map, Option.map_eq_some_iff, not_exists, not_and, ne_eq,
      Option.eq_none_iff_forall_ne_some]
    refine and_congr_left' ⟨fun silent result member tr same => ?_,
      fun silent _ result member tr same _ => silent result member tr same⟩
    exact silent tr.change result member tr same rfl
  have output := follows.advance_eq longest
  rw [advanced] at output
  refine ⟨first, rest, longest, state, transitions, next, transition, traced, fed, level, ?_⟩
  rw [← level, ← unsettled]
  change _ = if sample.level = state.committedLevel then _ else _ at output
  by_cases same : sample.level = state.committedLevel
  · rw [if_pos same, Prod.mk.injEq, Option.map_eq_none_iff] at output
    simp [output.2, same]
  · rw [if_neg same] at output
    by_cases ripe : minDuration.nanos ≤ sample.now - first.now
    · have due : elapsed minDuration first.now sample.now = true := by simpa [elapsed] using ripe
      rw [if_pos due, Prod.mk.injEq, Option.map_eq_some_iff] at output
      obtain ⟨_, tr, rfl, change⟩ := output
      rw [Transition.change, Change.mk.injEq] at change
      obtain ⟨previous, new, initial⟩ := change
      simp [same, ripe, previous, new, initial, AlertState.debouncer]
    · have unripe : ¬ elapsed minDuration first.now sample.now = true := by
        simpa [elapsed] using ripe
      rw [if_neg unripe, Prod.mk.injEq, Option.map_eq_none_iff] at output
      simp [output.2, ripe]

/-- `critical` at 0, 2 and 5 s under a window of 5 s commits with the third. -/
example : (reconcileTrace ⟨5 * 10 ^ 9, by decide⟩ {}
    [⟨0, .critical, false⟩, ⟨2 * 10 ^ 9, .critical, false⟩, ⟨5 * 10 ^ 9, .critical, false⟩]).map
      (fun traced => traced.2.map (Option.map Transition.new)) =
    some [none, none, some .critical] := by
  decide

end GlancesRs
