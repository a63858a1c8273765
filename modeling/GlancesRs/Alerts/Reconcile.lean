import GlancesRs.Alerts.Levels
import GlancesRs.Data.Debounce

namespace GlancesRs

open Data

/-! The per-triple hysteresis state machine, and the debouncer it implements. -/

/-- A `std::time::Instant`, in nanoseconds since the server started. -/
abbrev Instant := ℕ

structure AlertState where
  committedLevel : Level := .ok
  pendingLevel : Option Level := none
  pendingSince : Option Instant := none
  hasCommitted : Bool := false
deriving DecidableEq

structure Transition where
  previous : Level
  new : Level
  isInitial : Bool
deriving DecidableEq

def AlertState.clearPending (state : AlertState) : AlertState :=
  { state with pendingLevel := none, pendingSince := none }

def AlertState.commit (state : AlertState) (observed : Level) : AlertState × Transition :=
  ({ committedLevel := observed, hasCommitted := true },
    { previous := state.committedLevel, new := observed, isInitial := !state.hasCommitted })

/-- One observation; `none` where the `expect` on `pending_since` panics. -/
def reconcile (state : AlertState) (observed : Level) (now : Instant) (minDuration : Duration) :
    Option (AlertState × Option Transition) :=
  if observed = state.committedLevel then
    some ({ state.clearPending with hasCommitted := true }, none)
  else if minDuration.isZero then
    let (state, transition) := state.commit observed
    some (state, some transition)
  else if state.pendingLevel = some observed then do
    let since ← state.pendingSince
    if minDuration.nanos ≤ now - since then
      let (state, transition) := state.commit observed
      some (state, some transition)
    else some (state, none)
  else
    some ({ state with pendingLevel := some observed, pendingSince := some now }, none)

def AlertState.Coherent (state : AlertState) : Prop :=
  state.pendingLevel.isSome = state.pendingSince.isSome

def AlertState.debouncer (state : AlertState) : Debouncer Level Instant where
  committed := state.committedLevel
  pending := state.pendingLevel.bind fun level => state.pendingSince.map fun since => (level, since)
  settled := state.hasCommitted

def elapsed (minDuration : Duration) (since now : Instant) : Bool :=
  minDuration.nanos ≤ now - since

def Transition.change (transition : Transition) : Change Level where
  previous := transition.previous
  new := transition.new
  initial := transition.isInitial

variable {state : AlertState} {minDuration : Duration}

theorem elapsed_self (positive : 0 < minDuration.nanos) (now : Instant) :
    elapsed minDuration now now = false := by
  simp [elapsed, positive.ne']

@[simp] theorem AlertState.debouncer_default : ({} : AlertState).debouncer = { committed := .ok } := rfl

theorem AlertState.coherent_default : ({} : AlertState).Coherent := rfl

theorem AlertState.coherent_clearPending : state.clearPending.Coherent := rfl

theorem AlertState.Coherent.window (coherent : state.Coherent) :
    (state.pendingLevel = none ∧ state.pendingSince = none) ∨
      ∃ level since, state.pendingLevel = some level ∧ state.pendingSince = some since := by
  rw [Coherent] at coherent
  cases pending : state.pendingLevel <;> cases opened : state.pendingSince <;>
    simp_all

theorem reconcile_eq (coherent : state.Coherent) (observed : Level) (now : Instant)
    (minDuration : Duration) :
    reconcile state observed now minDuration =
      if observed = state.committedLevel then
        some ({ state.clearPending with hasCommitted := true }, none)
      else if elapsed minDuration (state.debouncer.since observed now) now then
        some ((state.commit observed).1, some (state.commit observed).2)
      else
        some ({ state with
          pendingLevel := some observed
          pendingSince := some (state.debouncer.since observed now) }, none) := by
  by_cases same : observed = state.committedLevel
  · simp [reconcile, same]
  · by_cases instant : minDuration.nanos = 0
    · simp [reconcile, same, Duration.isZero, elapsed, instant]
    · rcases coherent.window with ⟨pending, opened⟩ | ⟨level, since, pending, opened⟩
      · simp [reconcile, same, Duration.isZero, elapsed, instant, pending, Debouncer.since,
          AlertState.debouncer]
      · by_cases continued : level = observed
        · by_cases ripe : minDuration.nanos ≤ now - since
          · simp [reconcile, same, Duration.isZero, elapsed, instant, pending, opened, continued,
              ripe, Debouncer.since, AlertState.debouncer]
          · have kept : { state with pendingLevel := some observed, pendingSince := some since } =
                state := by
              rw [← continued, ← pending, ← opened]
            simp [reconcile, same, Duration.isZero, elapsed, instant, pending, opened, continued,
              ripe, Debouncer.since, AlertState.debouncer, kept]
        · simp [reconcile, same, Duration.isZero, elapsed, instant, pending, opened, continued,
            Debouncer.since, AlertState.debouncer]

/-- On coherent states `reconcile` never panics, keeps them coherent and is one
sample of the debouncer. -/
theorem reconcile_refines (coherent : state.Coherent) (observed : Level) (now : Instant)
    (minDuration : Duration) :
    ∃ next transition, reconcile state observed now minDuration = some (next, transition) ∧
      next.Coherent ∧
      state.debouncer.observe (elapsed minDuration) observed now =
        (next.debouncer, transition.map Transition.change) := by
  rw [reconcile_eq coherent]
  rw [Debouncer.observe]
  have level : state.debouncer.committed = state.committedLevel := rfl
  rw [level]
  split
  · exact ⟨_, _, rfl, rfl, rfl⟩
  · split
    · exact ⟨_, _, rfl, rfl, rfl⟩
    · exact ⟨_, _, rfl, rfl, rfl⟩

end GlancesRs
