import GlancesRs.Alerts.Persistence
import GlancesRs.Config.Validated
import GlancesRs.Engine.Moves

namespace GlancesRs

open Data

/-! The first cycle after a wake. `observe` drops stale pending windows by the
gap since the plugin's previous cycle, and a loop can stop and be woken again
within two refresh periods of its last one. -/

section Cycle

variable [NumberText] {config : Config} {alerts : Alerts} {cycle : Cycle} {out : Observed}
variable {minDuration : Duration}

def Inner.committedLevel (inner : Inner) (sk : StateKey) : Level :=
  ((inner.state sk).getD {}).committedLevel

/-- A window that was open before the cycle is due in it: no reset drops it, and the
payload shows its level first. -/
def StaleWindow (config : Config) (minDuration : Duration) (inner : Inner) (cycle : Cycle) : Prop :=
  watched config cycle.plugin = true ∧
    resetDue config cycle.plugin (inner.lastSeen cycle.plugin) cycle.now = false ∧
    ∃ sk, sk.plugin = cycle.plugin ∧ (inner.debouncer sk).Due (elapsed minDuration) cycle.now
      (samplesOf cycle.plugin sk (scan config cycle.plugin cycle.payload).observations)

def Quiet (before after : Inner) (committed : List Event) (cycle : Cycle) : Prop :=
  committed = [] ∧ ∀ sk, sk.plugin = cycle.plugin →
    presented sk.plugin sk.key cycle.payload ≠ [] →
    after.committedLevel sk = before.committedLevel sk

theorem observe_coherent (coherent : alerts.inner.Coherent)
    (called : alerts.observe config cycle = some out) : out.alerts.inner.Coherent := by
  cases watching : watched config cycle.plugin with
  | false =>
      rw [observe_unwatched watching] at called
      cases called
      exact coherent
  | true =>
      obtain ⟨_, observes⟩ := observe_watched coherent watching called
      exact observes.coherent

/-- A triple's cycle commits exactly when a window open before it is due in it. -/
theorem Observes.commits_iff (observes : Observes config alerts cycle out minDuration)
    (positive : 0 < minDuration.nanos) {sk : StateKey} (own : sk.plugin = cycle.plugin) :
    changesOf sk out.committed ≠ [] ↔
      resetDue config cycle.plugin (alerts.inner.lastSeen cycle.plugin) cycle.now = false ∧
        (alerts.inner.debouncer sk).Due (elapsed minDuration) cycle.now
          (samplesOf cycle.plugin sk (scan config cycle.plugin cycle.payload).observations) := by
  have output : changesOf sk out.committed = (Debouncer.step _ _ _ _).2 :=
    (congrArg Prod.snd (observes.own sk own)).symm
  rw [output, Debouncer.step_commits_iff (elapsed_self positive _)]
  constructor
  · intro parts
    obtain ⟨_, unreset, due⟩ := parts
    exact ⟨unreset, due⟩
  · intro parts
    obtain ⟨unreset, due⟩ := parts
    refine ⟨remembered_of_presented own.symm ?_, unreset, due⟩
    -- A due window has been sampled, so its item is there.
    obtain ⟨level, _, first, _⟩ := due
    obtain ⟨sample, head, _⟩ := Option.map_eq_some_iff.mp first
    rw [← own] at head
    exact presented_of_sample (List.mem_of_mem_head? head)

theorem Observes.quiet_iff (observes : Observes config alerts cycle out minDuration)
    (watching : watched config cycle.plugin = true) (positive : 0 < minDuration.nanos) :
    Quiet alerts.inner out.alerts.inner out.committed cycle ↔
      ¬ StaleWindow config minDuration alerts.inner cycle := by
  constructor
  · intro quiet stale
    obtain ⟨silent, _⟩ := quiet
    obtain ⟨_, unreset, sk, own, due⟩ := stale
    have loud := (observes.commits_iff positive own).mpr ⟨unreset, due⟩
    simp [silent, changesOf] at loud
  · intro fresh
    have silent : ∀ sk, sk.plugin = cycle.plugin → changesOf sk out.committed = [] := by
      intro sk own
      by_contra loud
      obtain ⟨unreset, due⟩ := (observes.commits_iff positive own).mp loud
      exact fresh ⟨watching, unreset, sk, own, due⟩
    refine ⟨List.eq_nil_iff_forall_not_mem.mpr fun event member => ?_, fun sk own present => ?_⟩
    · have change := mem_changesOf member
      by_cases own : event.stateKey.plugin = cycle.plugin
      · simp [silent event.stateKey own] at change
      · simp [(observes.other event.stateKey own).2] at change
    · have round := observes.own sk own
      rw [silent sk own] at round
      have kept := Debouncer.step_committed (remembered_of_presented own.symm present)
        (congrArg Prod.snd round)
      rw [congrArg Prod.fst round] at kept
      exact kept

theorem observe_quiet_iff (coherent : alerts.inner.Coherent)
    (window : effectiveMinDuration config cycle.plugin = some minDuration)
    (positive : 0 < minDuration.nanos) (called : alerts.observe config cycle = some out) :
    Quiet alerts.inner out.alerts.inner out.committed cycle ↔
      ¬ StaleWindow config minDuration alerts.inner cycle := by
  cases watching : watched config cycle.plugin with
  | false =>
      rw [observe_unwatched watching] at called
      cases called
      exact iff_of_true ⟨rfl, fun _ _ _ => rfl⟩ (by simp [StaleWindow, watching])
  | true =>
      obtain ⟨_, observes⟩ := observe_watched coherent watching called
      have same := observes.window
      rw [window] at same
      cases same
      exact observes.quiet_iff watching positive

end Cycle

section Runs

variable [NumberText] {setup : Setup} {engine after : Engine} {action : Action}
variable {labels : List Action} {cycle : Cycle} {minDuration : Duration}

theorem Moves.coherent (moves : Moves setup engine action after)
    (coherent : engine.alerts.inner.Coherent) : after.alerts.inner.Coherent := by
  cases moves with
  | observed _ _ called | observedOther _ called => exact observe_coherent coherent called
  | _ => exact coherent

theorem coherent_of_reachable (reachable : (engineSystem setup).Reachable engine) :
    engine.alerts.inner.Coherent := by
  have initial : (engineSystem setup).init.alerts.inner.Coherent := by
    intro sk st known
    cases known
  exact @TransitionSystem.Reachable.invariant _ _ (engineSystem setup)
    (fun engine => engine.alerts.inner.Coherent) engine initial
    (fun before action after coherent taken => (Engine.step_moves taken).coherent coherent) reachable

/-- In the run `labels` some loop's first call of `observe` is on `cycle`. -/
def FirstObserve (setup : Setup) (labels : List Action) (engine after : Engine) (cycle : Cycle) :
    Prop :=
  cycle.plugin = setup.id ∧ cycle.now = engine.now ∧
    ∃ l loop, engine.loops[l]? = some loop ∧ loop.observed = 0 ∧
      loop.phase = .observing cycle.payload ∧
      (engineSystem setup).StepOf (engineSystem setup).init labels engine
        (.observe l cycle.nowSys) after

/-- No loop's first call of `observe` appends an event, or changes the committed
level of a triple whose item is present. -/
def NoInstaCommit (setup : Setup) (labels : List Action) : Prop :=
  ∀ engine after cycle, FirstObserve setup labels engine after cycle →
    after.committed = engine.committed ∧ ∀ sk, sk.plugin = setup.id →
      presented sk.plugin sk.key cycle.payload ≠ [] →
      after.alerts.inner.committedLevel sk = engine.alerts.inner.committedLevel sk

theorem firstObserve_quiet_iff
    (window : effectiveMinDuration setup.config setup.id = some minDuration)
    (positive : 0 < minDuration.nanos) (first : FirstObserve setup labels engine after cycle) :
    (after.committed = engine.committed ∧ ∀ sk, sk.plugin = setup.id →
        presented sk.plugin sk.key cycle.payload ≠ [] →
        after.alerts.inner.committedLevel sk = engine.alerts.inner.committedLevel sk) ↔
      ¬ StaleWindow setup.config minDuration engine.alerts.inner cycle := by
  obtain ⟨own, atNow, l, loop, found, _, at_, stepped⟩ := first
  have coherent := coherent_of_reachable stepped.reachable
  obtain ⟨_, _, _, _, taken⟩ := stepped
  obtain ⟨known, value, out, found', at_', called, rfl⟩ := Engine.observe_cases taken
  rw [found] at found'
  cases found'
  rw [at_] at at_'
  cases at_'
  have cycle_eq : cycle = ⟨setup.id, engine.now, cycle.nowSys, cycle.payload⟩ := by
    rw [← own, ← atNow]
  rw [← cycle_eq] at called
  rw [← own] at window ⊢
  rw [← observe_quiet_iff coherent window positive called]
  simp [Quiet, Engine.setLoop, Engine.record]

/-- In every run the first cycles after a wake commit nothing exactly when none
of them meets a stale window that the gap does not reset. -/
theorem noInstaCommit_iff
    (window : effectiveMinDuration setup.config setup.id = some minDuration)
    (positive : 0 < minDuration.nanos) (labels : List Action) :
    NoInstaCommit setup labels ↔
      ∀ engine after cycle, FirstObserve setup labels engine after cycle →
        ¬ StaleWindow setup.config minDuration engine.alerts.inner cycle := by
  constructor
  · intro quiet engine after cycle first
    exact (firstObserve_quiet_iff window positive first).mp (quiet engine after cycle first)
  · intro fresh engine after cycle first
    exact (firstObserve_quiet_iff window positive first).mpr (fresh engine after cycle first)

end Runs

/-- Memory is critical from 90 percent on; all timing is the default one. -/
def busyMemoryDocument : String := "[plugins.mem.thresholds.percent]\ncritical = 90\n"

def busyMemorySetup : Setup where
  crates := .ofDocument busyMemoryDocument busyMemory
  config := busyMemory
  hostname := "h"
  id := .mem

def memoryPayload (percent : Float) : Json := .object [("percent", .number (.float percent))]

def fullCycle (l : ℕ) (percent : Float) : List Action :=
  [.collect l (memoryPayload percent), .observe l 0, .publish l, .setReady l, .sleep l,
    .tick (2 * 10 ^ 9), .idleCheck l]

/-- Memory turns critical six seconds after the only request; the loop stops at
ten seconds and is woken again one second later. -/
def earlyRewake : List Action :=
  [.arrive, .lookup 0] ++ fullCycle 0 50 ++ fullCycle 0 50 ++ fullCycle 0 50 ++ fullCycle 0 95 ++
    fullCycle 0 95 ++ [.lock 0, .recheck 0, .tick (10 ^ 9), .arrive, .lookup 1,
    .collect 1 (memoryPayload 95)]

/-- Three seconds after the stopped loop's last cycle the gap is no reset, and
the window of five seconds is due. -/
theorem earlyRewake_commits : ∃ engine after cycle,
    @FirstObserve .integers busyMemorySetup (earlyRewake ++ [.observe 1 0]) engine after cycle ∧
      after.committed ≠ engine.committed := by
  have evaluated : ((@engineSystem .integers busyMemorySetup).run
      (@engineSystem .integers busyMemorySetup).init earlyRewake).bind (fun engine =>
        (@Engine.step busyMemorySetup engine .integers (.observe 1 0)).map fun after =>
          (engine.committed.length, after.committed.length,
            engine.loops[1]?.map Loop.observed)) = some (0, 1, some 0) := by
    decide +kernel
  obtain ⟨engine, ran, stepped⟩ := Option.bind_eq_some_iff.mp evaluated
  obtain ⟨after, taken, counts⟩ := Option.map_eq_some_iff.mp stepped
  simp only [Prod.mk.injEq] at counts
  obtain ⟨before, one, unobserved⟩ := counts
  obtain ⟨loop, value, _, found, at_, _, _⟩ := @Engine.observe_cases _ _ _ _ _ .integers taken
  have fresh : loop.observed = 0 := by simpa [found] using unobserved
  refine ⟨engine, after, ⟨.mem, engine.now, 0, value⟩,
    ⟨rfl, rfl, 1, loop, found, fresh, at_, earlyRewake, [], rfl, ran, taken⟩, fun same => ?_⟩
  rw [same, before] at one
  cases one

theorem busyMemory_window : effectiveMinDuration busyMemory .mem = some ⟨5 * 10 ^ 9, by decide⟩ := by
  decide +kernel

theorem earlyRewake_instaCommits :
    Config.fromToml busyMemorySetup.crates (fun _ => none) busyMemoryDocument = .ok busyMemory ∧
      effectiveMinDuration busyMemory .mem = some ⟨5 * 10 ^ 9, by decide⟩ ∧
      ¬ @NoInstaCommit .integers busyMemorySetup (earlyRewake ++ [.observe 1 0]) := by
  refine ⟨Config.fromToml_ofDocument (by decide +kernel) rfl, busyMemory_window, fun quiet => ?_⟩
  obtain ⟨engine, after, cycle, first, commits⟩ := earlyRewake_commits
  exact commits (quiet engine after cycle first).1

theorem earlyRewake_staleWindow : ∃ engine after cycle,
    @FirstObserve .integers busyMemorySetup (earlyRewake ++ [.observe 1 0]) engine after cycle ∧
      @StaleWindow .integers busyMemory ⟨5 * 10 ^ 9, by decide⟩ engine.alerts.inner cycle := by
  by_contra fresh
  simp only [not_exists, not_and] at fresh
  have quiet := (@noInstaCommit_iff .integers busyMemorySetup ⟨5 * 10 ^ 9, by decide⟩
    busyMemory_window (by decide) (earlyRewake ++ [.observe 1 0])).mpr fresh
  obtain ⟨engine, after, cycle, first, commits⟩ := earlyRewake_commits
  exact commits (quiet engine after cycle first).1

end GlancesRs
