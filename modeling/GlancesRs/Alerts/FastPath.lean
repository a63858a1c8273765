import GlancesRs.Alerts.Pruning
import GlancesRs.Alerts.RawLevels
import GlancesRs.Config.Validated

namespace GlancesRs

open Data

/-! The early return for plugins without thresholds, against the same function
without it. What the guard skips is the bookkeeping of `last_seen`, and the
conversions of settings the plugin makes no use of. -/

/-- `Alerts.observe` without its early return on `!has_thresholds`. -/
def Alerts.observeUnguarded [NumberText] (config : Config) (alerts : Alerts) (cycle : Cycle) :
    Option Observed :=
  let id := cycle.plugin
  let value := cycle.payload
  if (alertFields id).isEmpty then some { alerts, value }
  else do
    let minDuration ← effectiveMinDuration config id
    let refresh ← config.refreshFor id.asStr
    let reset ← gapReset refresh (alerts.inner.lastSeen id) cycle.now
    let scanned := scan config id value
    let value ← value.setKey? "_levels" (.object scanned.levels)
    let inner := alerts.inner.sweep id cycle.now reset scanned.live
    let (inner, committed) ← reconcileAll alerts.hostname cycle minDuration config.alerts.historySize
      inner scanned.observations
    return { alerts := { alerts with inner }, value, committed }

def unguardedSystem [NumberText] (config : Config) (hostname : String) :
    TransitionSystem Journal Cycle where
  init := { alerts := { hostname } }
  step journal cycle :=
    (journal.alerts.observeUnguarded config cycle).map fun out =>
      { alerts := out.alerts
        log := journal.log ++ [{ cycle, value := out.value, committed := out.committed }] }

/-- What is visible of a run: the payloads left, the events committed, the
journal and the hysteresis map. -/
def Journal.visible (journal : Journal) : List Entry × List Event × (StateKey → Option AlertState) :=
  (journal.log, journal.alerts.inner.history, journal.alerts.inner.state)

/-- The conversions an unguarded call makes do not panic. -/
structure ConversionsFit (config : Config) (id : PluginId) : Prop where
  minDuration : (effectiveMinDuration config id).isSome = true
  refresh : ((config.refreshFor id.asStr).bind fun refresh => refresh.mul? 2).isSome = true

def Inner.withSeen (inner : Inner) (seen : PluginId → Option Instant) : Inner :=
  { inner with lastSeen := seen }

def Alerts.withSeen (alerts : Alerts) (seen : PluginId → Option Instant) : Alerts :=
  { alerts with inner := alerts.inner.withSeen seen }

def noteSeen (seen : PluginId → Option Instant) (id : PluginId) (now : Instant) :
    PluginId → Option Instant :=
  fun other => if other = id then some now else seen other

section Calls

variable {config : Config} {hostname : String} {cycle : Cycle} {minDuration : Duration} {id : PluginId}
variable {inner next : Inner} {events : List Event} {historySize : ℕ}
variable {seen : PluginId → Option Instant}

theorem reconcileAll_withSeen (inner : Inner) (observed : List Observation) :
    reconcileAll hostname cycle minDuration historySize (inner.withSeen seen) observed =
      (reconcileAll hostname cycle minDuration historySize inner observed).map fun result =>
        (result.1.withSeen seen, result.2) := by
  induction observed generalizing inner with
  | nil => rfl
  | cons o rest ih =>
      have one : reconcileObservation hostname cycle minDuration historySize (inner.withSeen seen) o =
          (reconcileObservation hostname cycle minDuration historySize inner o).map fun result =>
            (result.1.withSeen seen, result.2) := by
        simp only [reconcileObservation, Inner.withSeen, Option.bind_eq_bind]
        cases reconcile ((inner.state (o.stateKey cycle.plugin)).getD {}) o.level cycle.now
            minDuration with
        | none => rfl
        | some result =>
            obtain ⟨state, transition⟩ := result
            cases transition <;> rfl
      simp only [reconcileAll, one, Option.bind_eq_bind, Option.pure_def]
      cases reconcileObservation hostname cycle minDuration historySize inner o with
      | none => rfl
      | some result =>
          simp only [Option.map_some, Option.bind_some, ih]
          cases reconcileAll hostname cycle minDuration historySize result.1 rest <;> rfl

theorem sweep_withSeen (inner : Inner) (now : Instant) (reset : Bool) (live : List String) :
    (inner.withSeen seen).sweep id now reset live =
      (inner.sweep id now reset live).withSeen (noteSeen seen id now) := by
  rw [Inner.sweep, Inner.sweep]
  cases reset <;> cases id.keyField.isSome <;> rfl

/-- A sweep over a plugin without state only notes its cycle. -/
theorem sweep_stateless (stateless : ∀ sk, sk.plugin = id → inner.state sk = none) (now : Instant)
    (reset : Bool) (live : List String) :
    inner.sweep id now reset live = inner.withSeen (noteSeen inner.lastSeen id now) := by
  have cleared : ∀ inner' : Inner, inner'.state = inner.state → inner'.resetPending id = inner' := by
    intro inner' same
    have state : (inner'.resetPending id).state = inner'.state := by
      funext k
      by_cases own : k.plugin = id
      · simp [Inner.resetPending, own, same, stateless k own]
      · simp [Inner.resetPending, own]
    exact congrArg (fun held => { inner' with state := held }) state
  have pruned : ∀ inner' : Inner, inner'.state = inner.state → inner'.prune id live = inner' := by
    intro inner' same
    have state : (inner'.prune id live).state = inner'.state := by
      funext k
      by_cases own : k.plugin = id
      · simp [Inner.prune, own, same, stateless k own]
      · simp [Inner.prune, own]
    exact congrArg (fun held => { inner' with state := held }) state
  have swept : ∀ noted : Inner, noted.state = inner.state →
      (if id.keyField.isSome then (if reset then noted.resetPending id else noted).prune id live
        else if reset then noted.resetPending id else noted) = noted := by
    intro noted same
    rw [cleared noted same, ite_self, pruned noted same, ite_self]
  exact swept (inner.withSeen (noteSeen inner.lastSeen id now)) rfl

variable [NumberText] {alerts : Alerts} {out : Observed}

theorem observeUnguarded_watched (watching : watched config cycle.plugin = true) :
    alerts.observeUnguarded config cycle = alerts.observe config cycle := by
  simp only [watched, Bool.and_eq_true, Bool.not_eq_true'] at watching
  simp [Alerts.observeUnguarded, Alerts.observe, watching.1, watching.2]

/-- Other plugins' `last_seen` does not matter to a call. -/
theorem observe_withSeen (same : seen cycle.plugin = alerts.inner.lastSeen cycle.plugin)
    (watching : watched config cycle.plugin = true) :
    (alerts.withSeen seen).observe config cycle =
      (alerts.observe config cycle).map fun out =>
        { out with alerts := out.alerts.withSeen (noteSeen seen cycle.plugin cycle.now) } := by
  simp only [watched, Bool.and_eq_true, Bool.not_eq_true'] at watching
  simp only [Alerts.observe, watching.1, watching.2, Bool.not_true, Bool.false_eq_true, if_false,
    Option.bind_eq_bind, Option.pure_def, Alerts.withSeen, sweep_withSeen, reconcileAll_withSeen]
  have noted : (alerts.inner.withSeen seen).lastSeen cycle.plugin =
      alerts.inner.lastSeen cycle.plugin := same
  rw [noted]
  cases effectiveMinDuration config cycle.plugin with
  | none => rfl
  | some minDuration =>
      cases config.refreshFor cycle.plugin.asStr with
      | none => rfl
      | some refresh =>
          cases gap : gapReset refresh (alerts.inner.lastSeen cycle.plugin) cycle.now with
          | none => simp [gap]
          | some reset =>
              cases cycle.payload.setKey? "_levels"
                  (.object (scan config cycle.plugin cycle.payload).levels) with
              | none => simp
              | some value =>
                  simp only [gap, Option.bind_some]
                  cases reconcileAll alerts.hostname cycle minDuration config.alerts.historySize _
                    (scan config cycle.plugin cycle.payload).observations <;> rfl

omit [NumberText] in
theorem reconcileAll_lastSeen {observed : List Observation}
    (looped : reconcileAll hostname cycle minDuration historySize inner observed =
      some (next, events)) :
    next.lastSeen = inner.lastSeen := by
  have again : reconcileAll hostname cycle minDuration historySize inner observed = _ :=
    reconcileAll_withSeen inner observed
  rw [looped, Option.map_some, Option.some.injEq, Prod.mk.injEq] at again
  have kept := congrArg Inner.lastSeen again.1
  exact kept

theorem observe_lastSeen (watching : watched config cycle.plugin = true)
    (called : alerts.observe config cycle = some out) (id : PluginId) :
    out.alerts.inner.lastSeen id = noteSeen alerts.inner.lastSeen cycle.plugin cycle.now id := by
  obtain ⟨_, _, _, _, inner, _, _, _, _, looped, after, _⟩ := observe_parts watching called
  rw [after, reconcileAll_lastSeen looped, Inner.lastSeen_sweep]
  rfl

omit [NumberText] in
theorem observations_unset (unset : hasThresholds config id = false) (key : Option String)
    (stats : Json) : observations config id key stats = [] := by
  refine List.filterMap_eq_nil_iff.mpr fun af listed => ?_
  rw [Option.map_eq_none_iff, levelFor]
  simp [resolve_unset unset listed]

theorem scan_unset (unset : hasThresholds config id = false) (payload : Json) :
    (scan config id payload).levels = [] ∧ (scan config id payload).observations = [] := by
  have passed (pkField : String) (start : Scan) (data : List Json) :
      (data.foldl (Scan.item config id pkField) start).levels = start.levels ∧
        (data.foldl (Scan.item config id pkField) start).observations = start.observations := by
    induction data generalizing start with
    | nil => exact ⟨rfl, rfl⟩
    | cons item rest ih =>
        rw [List.foldl_cons]
        refine ⟨(ih _).1.trans ?_, (ih _).2.trans ?_⟩ <;>
          cases keyed : primaryKey pkField item <;>
            simp [Scan.item, keyed, observations_unset unset]
  rw [scan]
  cases id.keyField with
  | none => simp [observations_unset unset, levelMap]
  | some pkField => exact passed pkField {} (items payload)

/-- Without thresholds a call that converts its settings only notes the cycle. -/
theorem observeUnguarded_unset (listed : (alertFields cycle.plugin).isEmpty = false)
    (unset : hasThresholds config cycle.plugin = false) (fits : ConversionsFit config cycle.plugin)
    (enveloped : Enveloped cycle.payload)
    (stateless : ∀ sk, sk.plugin = cycle.plugin → alerts.inner.state sk = none) :
    alerts.observeUnguarded config cycle =
      some {
        alerts := alerts.withSeen (noteSeen alerts.inner.lastSeen cycle.plugin cycle.now)
        value := cycle.payload } := by
  obtain ⟨minDuration, window⟩ := Option.isSome_iff_exists.mp fits.minDuration
  obtain ⟨twice, doubled⟩ := Option.isSome_iff_exists.mp fits.refresh
  obtain ⟨refresh, timed, doubled⟩ := Option.bind_eq_some_iff.mp doubled
  obtain ⟨reset, gap⟩ : ∃ reset,
      gapReset refresh (alerts.inner.lastSeen cycle.plugin) cycle.now = some reset := by
    cases alerts.inner.lastSeen cycle.plugin with
    | none => exact ⟨false, rfl⟩
    | some prev => exact ⟨_, by rw [gapReset, doubled]; rfl⟩
  obtain ⟨levels, observations⟩ := scan_unset unset cycle.payload
  have written : cycle.payload.setKey? "_levels" (.object []) = some cycle.payload := by
    obtain ⟨members, object, sorted, held⟩ := enveloped
    rw [object, Json.setKey?, sorted.insertMember_of_lookup held]
  simp only [Alerts.observeUnguarded, listed, Bool.false_eq_true, if_false, window, timed, gap, levels,
    observations, written, sweep_stateless stateless, reconcileAll, Option.bind_eq_bind,
    Option.bind_some, Option.pure_def]
  rfl

theorem observeUnguarded_parts (listed : (alertFields cycle.plugin).isEmpty = false)
    (called : alerts.observeUnguarded config cycle = some out) :
    ∃ minDuration refresh reset, effectiveMinDuration config cycle.plugin = some minDuration ∧
      config.refreshFor cycle.plugin.asStr = some refresh ∧
      gapReset refresh (alerts.inner.lastSeen cycle.plugin) cycle.now = some reset ∧
      out.alerts.inner.lastSeen cycle.plugin = some cycle.now := by
  simp only [Alerts.observeUnguarded, listed, Bool.false_eq_true, if_false, Option.bind_eq_bind,
    Option.bind_eq_some_iff, Option.pure_def, Option.some.injEq, Prod.exists] at called
  obtain ⟨minDuration, window, refresh, timed, reset, gap, _, _, inner, _, looped, rfl⟩ := called
  refine ⟨minDuration, refresh, reset, window, timed, gap, ?_⟩
  rw [reconcileAll_lastSeen looped, Inner.lastSeen_sweep, if_pos rfl]

end Calls

section Runs

variable [NumberText] {config : Config} {hostname : String} {cycle : Cycle} {cycles : List Cycle}
variable {guarded unguarded : Journal}

/-- The two runs differ in what they last saw of plugins without thresholds. -/
structure Lockstep (config : Config) (guarded unguarded : Journal) : Prop where
  log : unguarded.log = guarded.log
  alerts : ∃ seen, unguarded.alerts = guarded.alerts.withSeen seen ∧
    ∀ id, watched config id = true → seen id = guarded.alerts.inner.lastSeen id
  current : guarded.Current config

theorem Lockstep.step (lockstep : Lockstep config guarded unguarded)
    (enveloped : Enveloped cycle.payload)
    (fits : (alertFields cycle.plugin).isEmpty = false → hasThresholds config cycle.plugin = false →
      ConversionsFit config cycle.plugin) :
    Option.Rel (Lockstep config) ((alertsSystem config hostname).step guarded cycle)
      ((unguardedSystem config hostname).step unguarded cycle) := by
  obtain ⟨log, ⟨seen, shared, agree⟩, current⟩ := lockstep
  have kept : ∀ after, (alertsSystem config hostname).step guarded cycle = some after →
      after.Current config := fun after taken => current.step taken
  simp only [alertsSystem, unguardedSystem] at kept ⊢
  cases watching : watched config cycle.plugin with
  | true =>
      rw [observeUnguarded_watched watching, shared, observe_withSeen (agree _ watching) watching]
      cases called : guarded.alerts.observe config cycle with
      | none => exact .none
      | some out =>
          refine .some ⟨by simp [log], ⟨noteSeen seen cycle.plugin cycle.now, rfl, fun id limited => ?_⟩,
            kept _ (by rw [called]; rfl)⟩
          simp only [observe_lastSeen watching called, noteSeen, agree id limited]
  | false =>
      have skipped : guarded.alerts.observe config cycle =
          some { alerts := guarded.alerts, value := cycle.payload } := observe_unwatched watching
      have untouched := kept _ (by rw [skipped]; rfl)
      rw [skipped]
      cases listed : (alertFields cycle.plugin).isEmpty with
      | true =>
          have ignored : unguarded.alerts.observeUnguarded config cycle =
              some { alerts := unguarded.alerts, value := cycle.payload } := by
            simp only [Alerts.observeUnguarded, listed, if_true]
          rw [ignored]
          exact .some ⟨by simp [log], ⟨seen, shared, agree⟩, untouched⟩
      | false =>
          have unset : hasThresholds config cycle.plugin = false := by
            simpa [watched, listed] using watching
          have stateless : ∀ sk, sk.plugin = cycle.plugin →
              (guarded.alerts.withSeen seen).inner.state sk = none := by
            intro sk own
            by_contra known
            have limited := (current sk known).1
            rw [own, watching] at limited
            cases limited
          rw [shared, observeUnguarded_unset listed unset (fits listed unset) enveloped stateless]
          refine .some ⟨by simp [log], ⟨noteSeen seen cycle.plugin cycle.now, rfl, fun id limited => ?_⟩,
            untouched⟩
          have other : id ≠ cycle.plugin := by
            intro own
            rw [own, watching] at limited
            cases limited
          exact (if_neg other).trans (agree id limited)

/-- An enveloped payload without stats. -/
def bareCycle (id : PluginId) : Cycle where
  plugin := id
  now := 0
  nowSys := 0
  payload := .object [("_levels", .object [])]

omit [NumberText] in
theorem bareCycle_enveloped (id : PluginId) : Enveloped (bareCycle id).payload :=
  ⟨_, rfl, List.pairwise_singleton _ _, rfl⟩

/-- Two unguarded calls in a row convert everything. -/
theorem conversionsFit_of_run {id : PluginId} (listed : (alertFields id).isEmpty = false)
    (ran : ((unguardedSystem config hostname).run (unguardedSystem config hostname).init
      [bareCycle id, bareCycle id]).isSome = true) :
    ConversionsFit config id := by
  obtain ⟨final, ran⟩ := Option.isSome_iff_exists.mp ran
  obtain ⟨middle, first, ran⟩ := Option.bind_eq_some_iff.mp ran
  obtain ⟨_, second, _⟩ := Option.bind_eq_some_iff.mp ran
  obtain ⟨out, called, rfl⟩ := Option.map_eq_some_iff.mp first
  obtain ⟨again, recalled, _⟩ := Option.map_eq_some_iff.mp second
  obtain ⟨minDuration, refresh, _, window, timed, _, seen⟩ := observeUnguarded_parts listed called
  obtain ⟨_, refresh', reset, _, timed', gap, _⟩ := observeUnguarded_parts listed recalled
  rw [timed, Option.some.injEq] at timed'
  subst timed'
  rw [seen, gapReset, Option.map_eq_some_iff] at gap
  obtain ⟨twice, doubled, _⟩ := gap
  refine ⟨Option.isSome_iff_exists.mpr ⟨minDuration, window⟩, ?_⟩
  exact Option.isSome_iff_exists.mpr ⟨twice, Option.bind_eq_some_iff.mpr ⟨refresh, timed, doubled⟩⟩

/-- Every run leaves the same payloads, events, journal and hysteresis map with
and without the early return, and panics alike. -/
def FastPathNeutral (config : Config) : Prop :=
  ∀ hostname cycles, (∀ cycle ∈ cycles, Enveloped cycle.payload) →
    ((alertsSystem config hostname).run (alertsSystem config hostname).init cycles).map
        Journal.visible =
      ((unguardedSystem config hostname).run (unguardedSystem config hostname).init cycles).map
        Journal.visible

/-- The early return changes nothing exactly when no plugin it skips has settings
that do not convert. -/
theorem fastPathNeutral_iff (config : Config) :
    FastPathNeutral config ↔ ∀ id, (alertFields id).isEmpty = false →
      hasThresholds config id = false → ConversionsFit config id := by
  constructor
  · intro neutral id listed unset
    have ignored : watched config id = false := by simp [watched, unset]
    have same := congrArg Option.isSome
      (neutral "" [bareCycle id, bareCycle id] (by simp [bareCycle_enveloped]))
    rw [Option.isSome_map, Option.isSome_map] at same
    refine conversionsFit_of_run listed (same.symm.trans ?_)
    have skipped (alerts : Alerts) : alerts.observe config (bareCycle id) =
        some { alerts, value := (bareCycle id).payload } := observe_unwatched ignored
    simp [alertsSystem, skipped]
  · intro fits hostname cycles enveloped
    have initial : Lockstep config (alertsSystem config hostname).init
        (unguardedSystem config hostname).init :=
      ⟨rfl, ⟨fun _ => none, rfl, fun _ _ => rfl⟩, fun _ known => absurd rfl known⟩
    have together : Option.Rel (Lockstep config)
        ((alertsSystem config hostname).run (alertsSystem config hostname).init cycles)
        ((unguardedSystem config hostname).run (unguardedSystem config hostname).init cycles) :=
      TransitionSystem.run_rel
        (fun cycle member _ _ lockstep =>
          Lockstep.step lockstep (enveloped cycle member) (fits cycle.plugin)) initial
    generalize (alertsSystem config hostname).run _ cycles = left at together
    generalize (unguardedSystem config hostname).run _ cycles = right at together
    cases together with
    | none => rfl
    | some lockstep =>
        obtain ⟨log, ⟨seen, shared, _⟩, _⟩ := lockstep
        simp only [Option.map_some, Journal.visible, log, shared]
        rfl

end Runs

def longWindow : Config where
  alerts := { minDurationSeconds := 1e20 }

/-- A window no `Duration` holds: only the call without the guard converts it. -/
theorem longWindow_not_neutral :
    longWindow.validate (.ofDocument "" longWindow) = .ok () ∧
      ¬ @FastPathNeutral .integers longWindow := by
  refine ⟨by rfl, fun neutral => ?_⟩
  have same := congrArg Option.isSome (neutral "h"
    [⟨.mem, 0, 0, envelope (.object [("percent", .number (.float 50))]) 2⟩]
    (by simpa using envelope_enveloped (List.pairwise_singleton _ _) 2))
  have guarded : (((@alertsSystem .integers longWindow "h").run
      (@alertsSystem .integers longWindow "h").init
      [⟨.mem, 0, 0, envelope (.object [("percent", .number (.float 50))]) 2⟩]).map
        Journal.visible).isSome = true := by
    decide +kernel
  have unguarded : (((@unguardedSystem .integers longWindow "h").run
      (@unguardedSystem .integers longWindow "h").init
      [⟨.mem, 0, 0, envelope (.object [("percent", .number (.float 50))]) 2⟩]).map
        Journal.visible).isSome = false := by
    decide +kernel
  rw [guarded, unguarded] at same
  cases same

end GlancesRs
