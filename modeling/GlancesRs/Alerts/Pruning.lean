import GlancesRs.Alerts.Independence
import Mathlib.Algebra.Order.BigOperators.Group.List
import Mathlib.Data.Set.Card

namespace GlancesRs

open Data

/-! The hysteresis map holds nothing that the payloads last observed do not
account for, however many items have come and gone. -/

theorem encard_le_length {α : Type} [DecidableEq α] {members : Set α} {list : List α}
    (listed : ∀ value ∈ members, value ∈ list) : members.encard ≤ list.length := by
  have within : members ⊆ list.toFinset := fun value member => by simpa using listed value member
  calc members.encard
      ≤ (list.toFinset : Set α).encard := Set.encard_le_encard within
    _ = list.toFinset.card := Set.encard_coe_eq_coe_finsetCard _
    _ ≤ list.length := by exact_mod_cast List.toFinset_card_le list

def Journal.latest (journal : Journal) (id : PluginId) : Option Entry :=
  (journal.cycles id).getLast?

/-- Items of the plugin's latest payload; a scalar payload counts as one. -/
def Journal.currentItems (journal : Journal) (id : PluginId) : ℕ :=
  match journal.latest id with
  | none => 0
  | some entry => if id.keyField.isSome then (items entry.cycle.payload).length else 1

section Calls

variable {config : Config} {hostname : String} {cycle : Cycle} {minDuration : Duration}
variable {inner next : Inner} {events : List Event} {historySize : ℕ} {sk : StateKey} {id : PluginId}

/-- The loop creates state for the triples it observes only. -/
theorem reconcileAll_state {observed : List Observation}
    (looped : reconcileAll hostname cycle minDuration historySize inner observed =
      some (next, events))
    (known : next.state sk ≠ none) :
    inner.state sk ≠ none ∨ sk ∈ observed.map (Observation.stateKey cycle.plugin) := by
  induction observed generalizing inner events with
  | nil =>
      cases looped
      exact .inl known
  | cons o rest ih =>
      obtain ⟨middle, event, later, reconciled, continues, _⟩ := reconcileAll_cons looped
      rcases ih continues with before | observed
      · by_cases own : sk = o.stateKey cycle.plugin
        · exact .inr (by simp [own])
        · refine .inl fun absent => before ?_
          obtain ⟨st, ⟨_, rfl⟩ | ⟨journaled, _, _, rfl⟩⟩ := reconcileObservation_cases reconciled
          · simp [Inner.setState, own, absent]
          · simp [Inner.record, Inner.setState, own, absent]
      · exact .inr (List.mem_cons_of_mem _ observed)

theorem sweep_state {now : Instant} {reset : Bool} {live : List String}
    (known : (inner.sweep id now reset live).state sk ≠ none) :
    inner.state sk ≠ none ∧
      (sk.plugin = id → id.keyField.isSome = true → sk.key.all live.contains = true) := by
  have kept : ∀ inner' : Inner, (inner'.prune id live).state sk ≠ none →
      inner'.state sk ≠ none ∧ (sk.plugin = id → sk.key.all live.contains = true) := by
    intro inner' pruned
    simp only [Inner.prune] at pruned
    split at pruned
    · rename_i present
      exact ⟨pruned, fun own => present.resolve_left (not_not.mpr own)⟩
    · exact absurd rfl pruned
  have cleared : ∀ inner' : Inner, (inner'.resetPending id).state sk ≠ none →
      inner'.state sk ≠ none := by
    intro inner' reset absent
    simp [Inner.resetPending, absent] at reset
  obtain ⟨noted, same, swept⟩ : ∃ noted : Inner, noted.state = inner.state ∧
      (let entered := if reset then noted.resetPending id else noted
       if id.keyField.isSome then entered.prune id live else entered).state sk ≠ none :=
    ⟨{ inner with lastSeen := fun other => if other = id then some now else inner.lastSeen other },
      rfl, known⟩
  have entered : (if reset then noted.resetPending id else noted).state sk ≠ none →
      inner.state sk ≠ none := by
    rw [← same]
    split
    · exact cleared noted
    · exact fun known => known
  cases collection : id.keyField.isSome with
  | false =>
      rw [collection] at swept
      exact ⟨entered swept, fun _ impossible => by cases impossible⟩
  | true =>
      rw [collection] at swept
      obtain ⟨before, present⟩ := kept _ swept
      exact ⟨entered before, fun own _ => present own⟩

variable [NumberText] {payload : Json}

theorem mem_watchedTriples :
    sk ∈ watchedTriples id payload ↔
      sk.plugin = id ∧ sk.key ∈ itemKeys id payload ∧ ∃ af ∈ alertFields id, af.field = sk.field := by
  simp only [watchedTriples, List.mem_flatMap, List.mem_map]
  constructor
  · intro placed
    obtain ⟨key, keyed, af, listed, rfl⟩ := placed
    exact ⟨rfl, keyed, af, listed, rfl⟩
  · intro parts
    obtain ⟨rfl, keyed, af, listed, named⟩ := parts
    exact ⟨sk.key, keyed, af, listed, by rw [named]⟩

theorem itemKeys_of_live {pkField k : String} (kind : id.keyField = some pkField)
    (live : (scan config id payload).live.contains k = true) : some k ∈ itemKeys id payload := by
  obtain ⟨item, member⟩ := List.exists_mem_of_ne_nil _ ((live_contains kind).mp live)
  simp only [presented, kind, List.mem_filter, decide_eq_true_eq] at member
  simp only [itemKeys, kind]
  exact List.mem_map_of_mem (List.mem_filterMap.mpr ⟨item, member⟩)

theorem watchedTriples_length_le :
    (watchedTriples id payload).length ≤
      (if id.keyField.isSome then (items payload).length else 1) * (alertFields id).length := by
  have keys : (itemKeys id payload).length ≤
      if id.keyField.isSome then (items payload).length else 1 := by
    rw [itemKeys]
    cases id.keyField with
    | none => exact le_rfl
    | some pkField => simpa using List.length_filterMap_le (primaryKey pkField) (items payload)
  have size : (watchedTriples id payload).length =
      (itemKeys id payload).length * (alertFields id).length := by
    simp [watchedTriples, List.length_flatMap]
  rw [size]
  exact Nat.mul_le_mul_right _ keys

/-- What a call leaves in the map for the plugin it observes comes from the
payload at hand. -/
theorem observe_state {alerts : Alerts} {out : Observed}
    (watching : watched config cycle.plugin = true)
    (called : alerts.observe config cycle = some out)
    (known : out.alerts.inner.state sk ≠ none) (own : sk.plugin = cycle.plugin)
    (before : alerts.inner.state sk ≠ none → ∃ old, sk ∈ watchedTriples cycle.plugin old) :
    sk ∈ watchedTriples cycle.plugin cycle.payload := by
  obtain ⟨minDuration, refresh, reset, value, inner, _, _, _, _, looped, after, _⟩ :=
    observe_parts watching called
  rw [after] at known
  rcases reconcileAll_state looped known with swept | observed
  · obtain ⟨kept, present⟩ := sweep_state swept
    obtain ⟨old, former⟩ := before kept
    rw [mem_watchedTriples] at former ⊢
    obtain ⟨_, keyed, listed⟩ := former
    refine ⟨own, ?_, listed⟩
    cases kind : cycle.plugin.keyField with
    | none => simpa [itemKeys, kind] using keyed
    | some pkField =>
        simp only [itemKeys, kind, List.mem_map] at keyed
        obtain ⟨k, _, named⟩ := keyed
        have live := present own (by simp [kind])
        rw [← named, Option.all_some] at live
        rw [← named]
        exact itemKeys_of_live kind live
  · exact (scan_order config cycle.plugin cycle.payload).subset observed

theorem observe_state_other {alerts : Alerts} {out : Observed}
    (called : alerts.observe config cycle = some out)
    (known : out.alerts.inner.state sk ≠ none)
    (other : watched config cycle.plugin = false ∨ sk.plugin ≠ cycle.plugin) :
    alerts.inner.state sk ≠ none := by
  cases watching : watched config cycle.plugin with
  | false =>
      rw [observe_unwatched watching, Option.some.injEq] at called
      subst called
      exact known
  | true =>
      have foreign := other.resolve_left (by simp [watching])
      obtain ⟨minDuration, refresh, reset, value, inner, _, _, _, _, looped, after, _⟩ :=
        observe_parts watching called
      rw [after] at known
      rcases reconcileAll_state looped known with swept | observed
      · exact (sweep_state swept).1
      · obtain ⟨o, _, named⟩ := List.mem_map.mp observed
        exact absurd (congrArg StateKey.plugin named).symm foreign

end Calls

section Runs

variable [NumberText] {config : Config} {hostname : String} {journal after : Journal}
variable {cycle : Cycle} {cycles : List Cycle} {sk : StateKey} {id : PluginId}

/-- Every state belongs to a triple of the latest payload of a plugin with limits. -/
def Journal.Current (config : Config) (journal : Journal) : Prop :=
  ∀ sk, journal.alerts.inner.state sk ≠ none → watched config sk.plugin = true ∧
    ∃ entry ∈ journal.latest sk.plugin, sk ∈ watchedTriples sk.plugin entry.cycle.payload

theorem Journal.Current.step (current : journal.Current config)
    (taken : (alertsSystem config hostname).step journal cycle = some after) :
    after.Current config := by
  obtain ⟨out, called, alerted, logged⟩ := alertsSystem_step taken
  intro sk known
  rw [alerted] at known
  by_cases other : watched config cycle.plugin = false ∨ sk.plugin ≠ cycle.plugin
  · obtain ⟨watching, entry, latest, listed⟩ := current sk (observe_state_other called known other)
    have apart : ¬ cycle.plugin = sk.plugin := by
      intro own
      rw [own, watching] at other
      simp at other
    refine ⟨watching, entry, ?_, listed⟩
    rwa [Journal.latest, Journal.cycles_snoc logged, if_neg apart]
  · rw [not_or, not_not, Bool.not_eq_false] at other
    obtain ⟨watching, own⟩ := other
    refine ⟨own ▸ watching, { cycle, value := out.value, committed := out.committed }, ?_, ?_⟩
    · rw [Journal.latest, Journal.cycles_snoc logged, if_pos own.symm]
      simp
    · rw [own]
      refine observe_state watching called known own fun before => ?_
      obtain ⟨_, entry, _, listed⟩ := current sk before
      exact ⟨entry.cycle.payload, own ▸ listed⟩

theorem alertsSystem_current
    (ran : (alertsSystem config hostname).run (alertsSystem config hostname).init cycles =
      some journal) :
    journal.Current config :=
  TransitionSystem.run_invariant (fun _ _ _ current taken => Journal.Current.step current taken)
    (fun _ known => absurd rfl known) ran

/-- The map and the published levels are accounted for by the latest payloads. -/
structure Journal.Pruned (config : Config) (journal : Journal) : Prop where
  fields : ∀ sk, journal.alerts.inner.state sk ≠ none →
    ∃ af ∈ alertFields sk.plugin, af.field = sk.field
  collection : ∀ sk pkField, journal.alerts.inner.state sk ≠ none →
    sk.plugin.keyField = some pkField →
    ∃ k, sk.key = some k ∧ ∃ entry ∈ journal.latest sk.plugin,
      ∃ item ∈ items entry.cycle.payload, primaryKey pkField item = some k
  scalar : ∀ sk, journal.alerts.inner.state sk ≠ none → sk.plugin.keyField = none → sk.key = none
  levels : ∀ id pkField entry k levels, id.keyField = some pkField → watched config id = true →
    entry ∈ journal.latest id → (entry.value.get? "_levels").bind (Json.get? k) = some levels →
    ∃ item ∈ items entry.cycle.payload, primaryKey pkField item = some k
  bounded : ∀ id, {sk | sk.plugin = id ∧ journal.alerts.inner.state sk ≠ none}.encard ≤
    (journal.currentItems id * (alertFields id).length : ℕ)
  total : {sk | journal.alerts.inner.state sk ≠ none}.encard ≤
    ((PluginId.all.map fun id => journal.currentItems id * (alertFields id).length).sum : ℕ)

/-- The triples of the plugin's latest payload. -/
def Journal.currentTriples (journal : Journal) (id : PluginId) : List StateKey :=
  match journal.latest id with
  | none => []
  | some entry => watchedTriples id entry.cycle.payload

theorem currentTriples_length_le (journal : Journal) (id : PluginId) :
    (journal.currentTriples id).length ≤ journal.currentItems id * (alertFields id).length := by
  rw [Journal.currentTriples, Journal.currentItems]
  cases journal.latest id with
  | none => simp
  | some entry => exact watchedTriples_length_le

theorem Journal.Current.mem (current : journal.Current config)
    (known : journal.alerts.inner.state sk ≠ none) : sk ∈ journal.currentTriples sk.plugin := by
  obtain ⟨_, entry, latest, listed⟩ := current sk known
  rw [Option.mem_def] at latest
  simpa only [Journal.currentTriples, latest] using listed

/-- No hysteresis leak, in any run. -/
theorem no_hysteresis_leak
    (ran : (alertsSystem config hostname).run (alertsSystem config hostname).init cycles =
      some journal) :
    journal.Pruned config := by
  have current := alertsSystem_current ran
  refine ⟨fun sk known => ?_, fun sk pkField known kind => ?_, fun sk known kind => ?_,
    fun id pkField entry k levels kind watching latest published => ?_, fun id => ?_, ?_⟩
  · obtain ⟨_, _, _, listed⟩ := current sk known
    exact (mem_watchedTriples.mp listed).2.2
  · obtain ⟨_, entry, latest, listed⟩ := current sk known
    have keyed := (mem_watchedTriples.mp listed).2.1
    simp only [itemKeys, kind, List.mem_map, List.mem_filterMap] at keyed
    obtain ⟨k, ⟨item, member, named⟩, same⟩ := keyed
    exact ⟨k, same.symm, entry, latest, item, member, named⟩
  · obtain ⟨_, _, _, listed⟩ := current sk known
    have keyed := (mem_watchedTriples.mp listed).2.1
    simpa only [itemKeys, kind, List.mem_singleton] using keyed
  · obtain ⟨logged, own⟩ := List.mem_filter.mp (List.mem_of_getLast? latest)
    obtain rfl : entry.cycle.plugin = id := of_decide_eq_true own
    have written := ((alertsSystem_tracks ran).recorded entry logged).levels watching
    rw [written, Option.bind_some, Json.get?_object] at published
    exact exists_item_of_published kind published
  · have listed : ∀ sk ∈ {sk | sk.plugin = id ∧ journal.alerts.inner.state sk ≠ none},
        sk ∈ journal.currentTriples id := by
      intro sk member
      obtain ⟨rfl, known⟩ := member
      exact current.mem known
    exact (encard_le_length listed).trans (by exact_mod_cast currentTriples_length_le journal id)
  · have listed : ∀ sk ∈ {sk | journal.alerts.inner.state sk ≠ none},
        sk ∈ PluginId.all.flatMap journal.currentTriples := by
      intro sk known
      refine List.mem_flatMap.mpr ⟨sk.plugin, ?_, current.mem known⟩
      cases sk.plugin <;> decide
    refine (encard_le_length listed).trans ?_
    rw [List.length_flatMap]
    exact_mod_cast List.sum_le_sum fun id _ => currentTriples_length_le journal id

end Runs

/-- One disk leaves, another comes. -/
theorem replacedDisk_no_hysteresis_leak :
    ∃ journal,
      (@alertsSystem .integers fullDisk "h").run (@alertsSystem .integers fullDisk "h").init
        [mounts 1 [mount "/" 95], memory 2, mounts 3 [mount "/home" 95]] = some journal ∧
      journal.alerts.inner.state ⟨.fs, some "/home", "percent"⟩ ≠ none ∧
      @Journal.Pruned .integers fullDisk journal := by
  have evaluated : ((@alertsSystem .integers fullDisk "h").run
      (@alertsSystem .integers fullDisk "h").init
      [mounts 1 [mount "/" 95], memory 2, mounts 3 [mount "/home" 95]]).map
        (fun journal => (journal.alerts.inner.state ⟨.fs, some "/home", "percent"⟩).isSome) =
      some true := by
    decide +kernel
  obtain ⟨journal, ran, known⟩ := Option.map_eq_some_iff.mp evaluated
  exact ⟨journal, ran, Option.isSome_iff_ne_none.mp known, @no_hysteresis_leak .integers _ _ _ _ ran⟩

end GlancesRs
