import GlancesRs.Alerts.Observe

namespace GlancesRs

open Data

/-! One call of `observe`, seen from one `(plugin, key, field)` triple: a round
of the debouncer for the plugin's own triples, nothing for all others. -/

variable {config : Config} {id : PluginId} {sk : StateKey} {cycle : Cycle} {minDuration : Duration}
variable {hostname : String} {historySize : ℕ}

def Inner.debouncer (inner : Inner) (sk : StateKey) : Debouncer Level Instant :=
  ((inner.state sk).getD {}).debouncer

def Inner.Coherent (inner : Inner) : Prop :=
  ∀ sk st, inner.state sk = some st → st.Coherent

def Event.stateKey (event : Event) : StateKey := ⟨event.plugin, event.key, event.field⟩

def Event.change (event : Event) : Change Level × Float :=
  ({ previous := event.previousLevel, new := event.level, initial := event.isInitial }, event.value)

def changesOf (sk : StateKey) (events : List Event) : List (Change Level × Float) :=
  (events.filter fun event => event.stateKey = sk).map Event.change

def samplesOf (id : PluginId) (sk : StateKey) (observed : List Observation) : List (Level × Float) :=
  (observed.filter fun o => o.stateKey id = sk).map fun o => (o.level, o.raw)

section Inner

variable {inner : Inner} {st : AlertState} {other : StateKey} {event : Event}

theorem Inner.Coherent.state (coherent : inner.Coherent) (sk : StateKey) :
    ((inner.state sk).getD {}).Coherent := by
  cases found : inner.state sk with
  | none => exact AlertState.coherent_default
  | some st => exact coherent sk st found

theorem Inner.Coherent.setState (coherent : inner.Coherent) (kept : st.Coherent) :
    (inner.setState sk st).Coherent := by
  intro other found known
  simp only [Inner.setState] at known
  split at known
  · cases known
    exact kept
  · exact coherent other found known

theorem Inner.Coherent.resetPending (coherent : inner.Coherent) :
    (inner.resetPending id).Coherent := by
  intro other found known
  simp only [Inner.resetPending] at known
  split at known
  · obtain ⟨st, _, rfl⟩ := Option.map_eq_some_iff.mp known
    exact AlertState.coherent_clearPending
  · exact coherent other found known

theorem Inner.Coherent.prune (coherent : inner.Coherent) (live : List String) :
    (inner.prune id live).Coherent := by
  intro other found known
  simp only [Inner.prune] at known
  split at known
  · exact coherent other found known
  · cases known

@[simp] theorem Inner.debouncer_setState :
    (inner.setState sk st).debouncer other =
      if other = sk then st.debouncer else inner.debouncer other := by
  rw [Inner.debouncer, Inner.setState]
  dsimp only
  split <;> rfl

@[simp] theorem Inner.debouncer_record :
    (inner.record historySize event).debouncer other = inner.debouncer other := rfl

theorem Inner.debouncer_resetPending :
    (inner.resetPending id).debouncer other =
      if other.plugin = id then { inner.debouncer other with pending := none }
      else inner.debouncer other := by
  unfold Inner.debouncer Inner.resetPending
  dsimp only
  split
  · cases inner.state other <;> rfl
  · rfl

theorem Inner.debouncer_prune (live : List String) :
    (inner.prune id live).debouncer other =
      if other.plugin = id ∧ other.key.all live.contains = false then { committed := .ok }
      else inner.debouncer other := by
  unfold Inner.debouncer Inner.prune
  by_cases own : other.plugin = id <;> cases present : other.key.all live.contains <;>
    simp [own, present]

end Inner

@[simp] theorem samplesOf_nil : samplesOf id sk [] = [] := rfl

theorem samplesOf_singleton (o : Observation) :
    samplesOf id sk [o] = if o.stateKey id = sk then [(o.level, o.raw)] else [] := by
  by_cases own : o.stateKey id = sk <;> simp [samplesOf, own]

theorem samplesOf_append (first second : List Observation) :
    samplesOf id sk (first ++ second) = samplesOf id sk first ++ samplesOf id sk second := by
  simp [samplesOf]

theorem mem_changesOf {events : List Event} {event : Event} (member : event ∈ events) :
    event.change ∈ changesOf event.stateKey events :=
  List.mem_map.mpr ⟨event, List.mem_filter.mpr ⟨member, by simp⟩, rfl⟩

theorem changesOf_append (first second : List Event) :
    changesOf sk (first ++ second) = changesOf sk first ++ changesOf sk second := by
  simp [changesOf]

theorem changesOf_buildEvent (o : Observation) (tr : Transition) (ts : SystemTime) :
    changesOf sk [buildEvent hostname id o.key o.af tr o.raw ts] =
      if o.stateKey id = sk then [(tr.change, o.raw)] else [] := by
  have named : (buildEvent hostname id o.key o.af tr o.raw ts).stateKey = o.stateKey id := rfl
  by_cases own : o.stateKey id = sk <;> simp [changesOf, named, own]
  rfl

/-- What one observation does: it stores the state of its triple, and journals at
most one event, of that triple. -/
theorem reconcileObservation_cases {minDuration : Duration} {historySize : ℕ} {inner next : Inner}
    {o : Observation} {event : Option Event}
    (reconciled : reconcileObservation hostname cycle minDuration historySize inner o =
      some (next, event)) :
    ∃ st, (event = none ∧ next = inner.setState (o.stateKey cycle.plugin) st) ∨
      ∃ journaled, event = some journaled ∧ journaled.stateKey = o.stateKey cycle.plugin ∧
        next = (inner.setState (o.stateKey cycle.plugin) st).record historySize journaled := by
  obtain ⟨⟨st, transition⟩, _, stored⟩ := Option.bind_eq_some_iff.mp reconciled
  refine ⟨st, ?_⟩
  cases transition with
  | none =>
      cases stored
      exact .inl ⟨rfl, rfl⟩
  | some tr =>
      cases stored
      exact .inr ⟨_, rfl, rfl, rfl⟩

theorem reconcileAll_cons {minDuration : Duration} {historySize : ℕ} {inner next : Inner}
    {o : Observation} {rest : List Observation} {events : List Event}
    (looped : reconcileAll hostname cycle minDuration historySize inner (o :: rest) =
      some (next, events)) :
    ∃ middle event later,
      reconcileObservation hostname cycle minDuration historySize inner o = some (middle, event) ∧
      reconcileAll hostname cycle minDuration historySize middle rest = some (next, later) ∧
      events = event.toList ++ later := by
  obtain ⟨⟨middle, event⟩, reconciled, continued⟩ := Option.bind_eq_some_iff.mp looped
  obtain ⟨⟨last, later⟩, continues, result⟩ := Option.bind_eq_some_iff.mp continued
  cases result
  exact ⟨middle, event, later, reconciled, continues, rfl⟩

theorem reconcileObservation_refines (hostname : String) (cycle : Cycle) (minDuration : Duration)
    (historySize : ℕ) {inner : Inner} (coherent : inner.Coherent) (o : Observation) :
    ∃ next event,
      reconcileObservation hostname cycle minDuration historySize inner o = some (next, event) ∧
      next.Coherent ∧ next.lastSeen = inner.lastSeen ∧
      ∀ sk, (inner.debouncer sk).observeAll (elapsed minDuration) cycle.now
          (samplesOf cycle.plugin sk [o]) = (next.debouncer sk, changesOf sk event.toList) := by
  obtain ⟨st, transition, advanced, kept, sampled⟩ :=
    reconcile_refines (coherent.state (o.stateKey cycle.plugin)) o.level cycle.now minDuration
  have stored : (inner.setState (o.stateKey cycle.plugin) st).Coherent := coherent.setState kept
  change (inner.debouncer _).observe _ _ _ = _ at sampled
  cases transition with
  | none =>
      refine ⟨_, none, by simp [reconcileObservation, advanced], stored, rfl, fun sk => ?_⟩
      rw [samplesOf_singleton, Inner.debouncer_setState]
      by_cases own : o.stateKey cycle.plugin = sk
      · subst own
        simp [sampled, changesOf]
      · simp [own, Ne.symm own, changesOf]
  | some tr =>
      refine ⟨(inner.setState (o.stateKey cycle.plugin) st).record historySize _, some _,
        by simp only [reconcileObservation, advanced]; rfl, stored, rfl, fun sk => ?_⟩
      rw [samplesOf_singleton, Inner.debouncer_record, Inner.debouncer_setState, Option.toList_some,
        changesOf_buildEvent]
      by_cases own : o.stateKey cycle.plugin = sk
      · subst own
        simp [sampled]
      · simp [own, Ne.symm own]

/-- The loop never panics on coherent states, and feeds each triple its own
samples. -/
theorem reconcileAll_refines (hostname : String) (cycle : Cycle) (minDuration : Duration)
    (historySize : ℕ) {inner : Inner} (coherent : inner.Coherent)
    (observed : List Observation) :
    ∃ next events,
      reconcileAll hostname cycle minDuration historySize inner observed = some (next, events) ∧
      next.Coherent ∧ next.lastSeen = inner.lastSeen ∧
      ∀ sk, (inner.debouncer sk).observeAll (elapsed minDuration) cycle.now
          (samplesOf cycle.plugin sk observed) = (next.debouncer sk, changesOf sk events) := by
  induction observed generalizing inner with
  | nil => exact ⟨inner, [], rfl, coherent, rfl, fun sk => rfl⟩
  | cons o rest ih =>
      obtain ⟨middle, event, first, ready, seen, sampled⟩ :=
        reconcileObservation_refines hostname cycle minDuration historySize coherent o
      obtain ⟨next, events, looped, final, kept, refined⟩ := ih ready
      refine ⟨next, event.toList ++ events, by simp [reconcileAll, first, looped], final,
        kept.trans seen, fun sk => ?_⟩
      have split : samplesOf cycle.plugin sk (o :: rest) =
          samplesOf cycle.plugin sk [o] ++ samplesOf cycle.plugin sk rest :=
        samplesOf_append [o] rest
      rw [split, Debouncer.observeAll_append, sampled, refined, changesOf_append]

def watched (config : Config) (id : PluginId) : Bool :=
  !(alertFields id).isEmpty && hasThresholds config id

def resetDue (config : Config) (id : PluginId) (lastSeen : Option Instant) (now : Instant) : Bool :=
  ((config.refreshFor id.asStr).bind fun refresh => gapReset refresh lastSeen now) = some true

/-- A cycle as one triple of its plugin goes through it. -/
def tripleRound [NumberText] (config : Config) (lastSeen : Option Instant) (cycle : Cycle)
    (sk : StateKey) : Round Level Instant Float where
  now := cycle.now
  reset := resetDue config cycle.plugin lastSeen cycle.now
  forget := cycle.plugin.keyField.isSome &&
    !sk.key.all (scan config cycle.plugin cycle.payload).live.contains
  samples := samplesOf cycle.plugin sk (scan config cycle.plugin cycle.payload).observations

structure Observes [NumberText] (config : Config) (alerts : Alerts) (cycle : Cycle)
    (out : Observed) (minDuration : Duration) : Prop where
  window : effectiveMinDuration config cycle.plugin = some minDuration
  own : ∀ sk, sk.plugin = cycle.plugin →
    (alerts.inner.debouncer sk).step (elapsed minDuration) .ok
        (tripleRound config (alerts.inner.lastSeen cycle.plugin) cycle sk) =
      (out.alerts.inner.debouncer sk, changesOf sk out.committed)
  other : ∀ sk, sk.plugin ≠ cycle.plugin →
    out.alerts.inner.debouncer sk = alerts.inner.debouncer sk ∧ changesOf sk out.committed = []
  lastSeen : ∀ id, out.alerts.inner.lastSeen id =
    if id = cycle.plugin then some cycle.now else alerts.inner.lastSeen id
  levels : out.value.get? "_levels" =
    some (.object (scan config cycle.plugin cycle.payload).levels)
  coherent : out.alerts.inner.Coherent

/-- The sweeps are the entry of every own triple's round. -/
theorem Inner.debouncer_sweep {inner : Inner} {now : Instant} {reset : Bool} {live : List String} :
    (inner.sweep id now reset live).debouncer sk =
      if sk.plugin = id then
        if id.keyField.isSome && !sk.key.all live.contains then { committed := .ok }
        else if reset then { inner.debouncer sk with pending := none }
        else inner.debouncer sk
      else inner.debouncer sk := by
  have noted : ∀ seen, ({ inner with lastSeen := seen } : Inner).debouncer sk = inner.debouncer sk :=
    fun _ => rfl
  rw [Inner.sweep]
  cases id.keyField.isSome <;> cases reset <;> by_cases own : sk.plugin = id <;>
    simp [Inner.debouncer_prune, Inner.debouncer_resetPending, own, noted]

theorem Inner.lastSeen_sweep {inner : Inner} {now : Instant} {reset : Bool} {live : List String}
    (other : PluginId) :
    (inner.sweep id now reset live).lastSeen other =
      if other = id then some now else inner.lastSeen other := by
  rw [Inner.sweep]
  cases id.keyField.isSome <;> cases reset <;> rfl

theorem Inner.Coherent.sweep {inner : Inner} (coherent : inner.Coherent) (now : Instant) (reset : Bool)
    (live : List String) : (inner.sweep id now reset live).Coherent := by
  have noted : ∀ seen, ({ inner with lastSeen := seen } : Inner).Coherent := fun _ => coherent
  rw [Inner.sweep]
  cases id.keyField.isSome <;> cases reset <;>
    first
      | exact noted _
      | exact (noted _).resetPending
      | exact (noted _).prune live
      | exact (noted _).resetPending.prune live

theorem samplesOf_other (different : sk.plugin ≠ id) (observed : List Observation) :
    samplesOf id sk observed = [] := by
  have apart : ∀ o : Observation, o.stateKey id ≠ sk := by
    intro o named
    subst named
    exact different rfl
  simp [samplesOf, apart]

section Call

variable [NumberText] {alerts : Alerts} {out : Observed}

theorem observe_unwatched (ignored : watched config cycle.plugin = false) :
    alerts.observe config cycle = some { alerts, value := cycle.payload } := by
  simp only [watched, Bool.and_eq_false_iff, Bool.not_eq_false'] at ignored
  rw [Alerts.observe]
  rcases ignored with empty | unset
  · simp [empty]
  · simp [unset]

theorem observe_parts (watching : watched config cycle.plugin = true)
    (called : alerts.observe config cycle = some out) :
    ∃ minDuration refresh reset value inner,
      effectiveMinDuration config cycle.plugin = some minDuration ∧
      config.refreshFor cycle.plugin.asStr = some refresh ∧
      gapReset refresh (alerts.inner.lastSeen cycle.plugin) cycle.now = some reset ∧
      cycle.payload.setKey? "_levels"
        (.object (scan config cycle.plugin cycle.payload).levels) = some value ∧
      reconcileAll alerts.hostname cycle minDuration config.alerts.historySize
        (alerts.inner.sweep cycle.plugin cycle.now reset (scan config cycle.plugin cycle.payload).live)
        (scan config cycle.plugin cycle.payload).observations = some (inner, out.committed) ∧
      out.alerts = { alerts with inner } ∧ out.value = value := by
  simp only [watched, Bool.and_eq_true, Bool.not_eq_true'] at watching
  simp only [Alerts.observe, watching.1, watching.2, Bool.not_true, Bool.false_eq_true, if_false,
    Option.bind_eq_bind, Option.bind_eq_some_iff, Option.pure_def, Option.some.injEq,
    Prod.exists] at called
  obtain ⟨minDuration, window, refresh, timed, reset, gap, value, written, inner, committed, looped,
    rfl⟩ := called
  exact ⟨minDuration, refresh, reset, value, inner, window, timed, gap, written, looped, rfl, rfl⟩

theorem observe_watched (coherent : alerts.inner.Coherent)
    (watching : watched config cycle.plugin = true)
    (called : alerts.observe config cycle = some out) :
    ∃ minDuration, Observes config alerts cycle out minDuration := by
  obtain ⟨minDuration, refresh, reset, value, inner, window, timed, gap, written, looped, after, rfl⟩ :=
    observe_parts watching called
  obtain ⟨next, events, looping, ready, seen, refined⟩ :=
    reconcileAll_refines alerts.hostname cycle minDuration config.alerts.historySize
      (coherent.sweep cycle.now reset (scan config cycle.plugin cycle.payload).live)
      (scan config cycle.plugin cycle.payload).observations
  rw [looping, Option.some.injEq, Prod.mk.injEq] at looped
  obtain ⟨rfl, rfl⟩ := looped
  refine ⟨minDuration, window, fun sk own => ?_, fun sk other => ?_, fun id => ?_,
    Json.setKey?_get?_self written, ?_⟩
  · have due : resetDue config cycle.plugin (alerts.inner.lastSeen cycle.plugin) cycle.now = reset := by
      cases reset <;> simp [resetDue, timed, gap]
    have entered := refined sk
    rw [Inner.debouncer_sweep, if_pos own] at entered
    rw [after, ← entered]
    simp only [Debouncer.step, Debouncer.enter, tripleRound, due]
  · have entered := refined sk
    rw [Inner.debouncer_sweep, if_neg other, samplesOf_other other, Debouncer.observeAll_nil,
      Prod.mk.injEq] at entered
    rw [after]
    exact ⟨entered.1.symm, entered.2.symm⟩
  · rw [after, seen, Inner.lastSeen_sweep]
  · rw [after]
    exact ready

end Call

end GlancesRs
