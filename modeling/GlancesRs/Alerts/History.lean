import GlancesRs.Alerts.Independence
import Mathlib.Data.List.DropRight

namespace GlancesRs

open Data

/-! The journal is the recent end of everything ever committed: it loses what
the ring evicts, and nothing else. -/

section Lists

variable {α : Type} {kept log : List α} {size : ℕ}

/-- A list cut to its end can be extended and cut again. -/
theorem rtake_rtake_append (log added : List α) (size : ℕ) :
    (log.rtake size ++ added).rtake size = (log ++ added).rtake size := by
  simp only [List.rtake_eq_reverse_take_reverse, List.reverse_append, List.reverse_reverse,
    List.take_append, List.take_take]
  rw [Nat.min_eq_left (Nat.sub_le _ _)]

theorem length_rtake (log : List α) (size : ℕ) : (log.rtake size).length = min log.length size := by
  rw [List.rtake, List.length_drop]
  omega

end Lists

section Runs

variable {config : Config} {hostname : String} {cycle : Cycle} {minDuration : Duration}
variable {inner next : Inner} {events log : List Event} {historySize : ℕ}

/-- All transitions of a run, evicted ones included. -/
def Journal.committed (journal : Journal) : List Event :=
  journal.log.flatMap Entry.committed

theorem reconcileObservation_history {o : Observation} {event : Option Event}
    (kept : inner.history = log.rtake historySize)
    (reconciled : reconcileObservation hostname cycle minDuration historySize inner o =
      some (next, event)) :
    next.history = (log ++ event.toList).rtake historySize := by
  obtain ⟨st, ⟨rfl, rfl⟩ | ⟨journaled, rfl, _, rfl⟩⟩ := reconcileObservation_cases reconciled
  · simpa [Inner.setState] using kept
  · simp only [Inner.record, Inner.setState, kept, Option.toList_some]
    exact rtake_rtake_append log _ historySize

theorem reconcileAll_history {observed : List Observation}
    (kept : inner.history = log.rtake historySize)
    (looped : reconcileAll hostname cycle minDuration historySize inner observed =
      some (next, events)) :
    next.history = (log ++ events).rtake historySize := by
  induction observed generalizing inner log events with
  | nil =>
      cases looped
      simpa using kept
  | cons o rest ih =>
      obtain ⟨middle, event, later, reconciled, continues, rfl⟩ := reconcileAll_cons looped
      rw [ih (reconcileObservation_history kept reconciled) continues, List.append_assoc]

/-- Events come in the order of the observations they were committed for. -/
theorem reconcileAll_order {observed : List Observation}
    (looped : reconcileAll hostname cycle minDuration historySize inner observed =
      some (next, events)) :
    (events.map Event.stateKey).Sublist (observed.map (Observation.stateKey cycle.plugin)) := by
  induction observed generalizing inner events with
  | nil =>
      cases looped
      exact .slnil
  | cons o rest ih =>
      obtain ⟨middle, event, later, reconciled, continues, rfl⟩ := reconcileAll_cons looped
      obtain ⟨st, ⟨rfl, _⟩ | ⟨journaled, rfl, own, _⟩⟩ := reconcileObservation_cases reconciled
      · exact (ih continues).cons _
      · rw [List.map_cons, ← own]
        exact (ih continues).cons_cons _

variable [NumberText] {alerts : Alerts} {out : Observed} {journal : Journal} {cycles : List Cycle}

theorem observe_history (kept : alerts.inner.history = log.rtake config.alerts.historySize)
    (called : alerts.observe config cycle = some out) :
    out.alerts.inner.history = (log ++ out.committed).rtake config.alerts.historySize := by
  cases watching : watched config cycle.plugin with
  | false =>
      rw [observe_unwatched watching, Option.some.injEq] at called
      subst called
      simpa using kept
  | true =>
      obtain ⟨minDuration, refresh, reset, value, inner, _, _, _, _, looped, after, _⟩ :=
        observe_parts watching called
      rw [after]
      refine reconcileAll_history ?_ looped
      rw [← kept, Inner.sweep]
      cases cycle.plugin.keyField.isSome <;> cases reset <;> rfl

theorem observe_order (called : alerts.observe config cycle = some out) :
    (out.committed.map Event.stateKey).Sublist (watchedTriples cycle.plugin cycle.payload) := by
  cases watching : watched config cycle.plugin with
  | false =>
      rw [observe_unwatched watching, Option.some.injEq] at called
      subst called
      exact List.nil_sublist _
  | true =>
      obtain ⟨minDuration, refresh, reset, value, inner, _, _, _, _, looped, _, _⟩ :=
        observe_parts watching called
      exact (reconcileAll_order looped).trans (scan_order config cycle.plugin cycle.payload)

/-- The ring holds the end of the committed sequence, which lists the calls in
order, and each call's events in item and field order. -/
structure Journal.Complete (config : Config) (journal : Journal) : Prop where
  recent : journal.alerts.inner.history = journal.committed.rtake config.alerts.historySize
  ordered : ∀ entry ∈ journal.log,
    (entry.committed.map Event.stateKey).Sublist
      (watchedTriples entry.cycle.plugin entry.cycle.payload)

theorem alertsSystem_complete
    (ran : (alertsSystem config hostname).run (alertsSystem config hostname).init cycles =
      some journal) :
    journal.Complete config := by
  refine TransitionSystem.run_invariant ?_ ?_ ran
  · intro before cycle after complete taken
    obtain ⟨out, called, alerted, logged⟩ := alertsSystem_step taken
    refine ⟨?_, ?_⟩
    · rw [alerted, observe_history complete.recent called]
      simp [Journal.committed, logged]
    · rw [logged]
      simpa [or_imp, forall_and, observe_order called] using complete.ordered
  · refine ⟨?_, fun _ member => ?_⟩
    · simp [alertsSystem, Journal.committed]
    · cases member

/-- `history` serves the last `min(N, history_size)` of the `N` transitions the
run committed, call by call and in the order of each payload's triples. -/
theorem history_recent
    (ran : (alertsSystem config hostname).run (alertsSystem config hostname).init cycles =
      some journal) :
    journal.alerts.history =
        (journal.committed.drop (journal.committed.length - config.alerts.historySize)).map
          Event.toJson ∧
      journal.alerts.history.length =
        min journal.committed.length config.alerts.historySize ∧
      journal.log.map Entry.cycle = cycles ∧
      ∀ entry ∈ journal.log,
        (entry.committed.map Event.stateKey).Sublist
          (watchedTriples entry.cycle.plugin entry.cycle.payload) := by
  have complete := alertsSystem_complete ran
  refine ⟨?_, ?_, by simpa [alertsSystem] using alertsSystem_cycles ran, complete.ordered⟩
  · rw [Alerts.history, complete.recent, List.rtake]
  · rw [Alerts.history, List.length_map, complete.recent, length_rtake]

end Runs

def lastAlert : Config := { fullDisk with alerts := { historySize := 1, minDurationSeconds := 0 } }

/-- The ring wraps in the middle of a batch. -/
theorem lastAlert_history_recent :
    ∃ journal,
      (@alertsSystem .integers lastAlert "h").run (@alertsSystem .integers lastAlert "h").init
        [mounts 7 [mount "/" 95, mount "/home" 99]] = some journal ∧
      journal.committed.length = 2 ∧
      journal.alerts.history = (journal.committed.drop 1).map Event.toJson := by
  have evaluated : ((@alertsSystem .integers lastAlert "h").run
      (@alertsSystem .integers lastAlert "h").init
      [mounts 7 [mount "/" 95, mount "/home" 99]]).map (fun journal => journal.committed.length) =
      some 2 := by
    decide +kernel
  obtain ⟨journal, ran, committed⟩ := Option.map_eq_some_iff.mp evaluated
  have recent := (@history_recent lastAlert "h" .integers _ _ ran).1
  rw [committed] at recent
  exact ⟨journal, ran, committed, recent⟩

end GlancesRs
