import GlancesRs.Alerts.Triple
import GlancesRs.Data.TransitionSystem

namespace GlancesRs

open Data

/-! Runs of `observe` over any interleaving of the plugins. What a run commits
for a triple is a run of the debouncer over the cycles of the triple's plugin. -/

structure Entry where
  cycle : Cycle
  value : Json
  committed : List Event

structure Journal where
  alerts : Alerts
  log : List Entry := []

def alertsSystem [NumberText] (config : Config) (hostname : String) :
    TransitionSystem Journal Cycle where
  init := { alerts := { hostname } }
  step journal cycle :=
    (journal.alerts.observe config cycle).map fun out =>
      { alerts := out.alerts
        log := journal.log ++ [{ cycle, value := out.value, committed := out.committed }] }

def Journal.cycles (journal : Journal) (id : PluginId) : List Entry :=
  journal.log.filter fun entry => entry.cycle.plugin = id

def tripleRounds [NumberText] (config : Config) (sk : StateKey) :
    Option Instant → List Entry → List (Round Level Instant Float)
  | _, [] => []
  | lastSeen, entry :: later =>
      tripleRound config lastSeen entry.cycle sk :: tripleRounds config sk (some entry.cycle.now) later

variable [NumberText] {config : Config} {id : PluginId} {sk : StateKey} {minDuration : Duration}
variable {hostname : String} {journal after : Journal} {cycle : Cycle}

def lastNow (entries : List Entry) : Option Instant :=
  entries.getLast?.map fun entry => entry.cycle.now

theorem tripleRounds_append (first second : List Entry) (lastSeen : Option Instant) :
    tripleRounds config sk lastSeen (first ++ second) =
      tripleRounds config sk lastSeen first ++
        tripleRounds config sk ((lastNow first).or lastSeen) second := by
  induction first generalizing lastSeen with
  | nil => rfl
  | cons entry later ih =>
      have last : (lastNow later).or (some entry.cycle.now) =
          (lastNow (entry :: later)).or lastSeen := by
        cases final : later.getLast? <;> simp [lastNow, List.getLast?_cons, final]
      rw [List.cons_append, tripleRounds, ih, last, tripleRounds, List.cons_append]

theorem tripleRounds_snoc (entries : List Entry) (entry : Entry) :
    tripleRounds config sk none (entries ++ [entry]) =
      tripleRounds config sk none entries ++ [tripleRound config (lastNow entries) entry.cycle sk] := by
  simp [tripleRounds_append, tripleRounds]

structure Entry.Recorded (config : Config) (entry : Entry) : Prop where
  silent : watched config entry.cycle.plugin = false → entry.committed = []
  plugins : ∀ event ∈ entry.committed, event.plugin = entry.cycle.plugin
  levels : watched config entry.cycle.plugin = true → entry.value.get? "_levels" =
    some (.object (scan config entry.cycle.plugin entry.cycle.payload).levels)
  window : watched config entry.cycle.plugin = true →
    ∃ minDuration, effectiveMinDuration config entry.cycle.plugin = some minDuration

/-- Where a triple's events come from: a cycle of its plugin, with limits to
watch and a window to wait for. -/
theorem Entry.Recorded.source {entry : Entry} {event : Event} {sk : StateKey}
    (recorded : entry.Recorded config) (journaled : event ∈ entry.committed)
    (named : event.stateKey = sk) :
    entry.cycle.plugin = sk.plugin ∧ watched config sk.plugin = true ∧
      ∃ minDuration, effectiveMinDuration config sk.plugin = some minDuration := by
  have own : entry.cycle.plugin = sk.plugin :=
    (recorded.plugins event journaled).symm.trans (congrArg StateKey.plugin named)
  have watching : watched config sk.plugin = true := by
    by_contra ignored
    have silent := recorded.silent (by simpa [own] using ignored)
    rw [silent] at journaled
    cases journaled
  exact ⟨own, watching, own ▸ recorded.window (own ▸ watching)⟩

/-- What the state and the log of a run have to do with each other. -/
structure Journal.Tracks (config : Config) (journal : Journal) : Prop where
  coherent : journal.alerts.inner.Coherent
  lastSeen : ∀ id, watched config id = true →
    journal.alerts.inner.lastSeen id = lastNow (journal.cycles id)
  triples : ∀ sk minDuration, watched config sk.plugin = true →
    effectiveMinDuration config sk.plugin = some minDuration →
    Debouncer.run (elapsed minDuration) .ok { committed := .ok }
        (tripleRounds config sk none (journal.cycles sk.plugin)) =
      (journal.alerts.inner.debouncer sk,
        (journal.cycles sk.plugin).map fun entry => changesOf sk entry.committed)
  recorded : ∀ entry ∈ journal.log, entry.Recorded config

theorem Journal.tracks_initial : ((alertsSystem config hostname).init).Tracks config where
  coherent := by intro sk st found; cases found
  lastSeen _ _ := rfl
  triples _ _ _ _ := rfl
  recorded _ member := by cases member

theorem alertsSystem_step (taken : (alertsSystem config hostname).step journal cycle = some after) :
    ∃ out, journal.alerts.observe config cycle = some out ∧ after.alerts = out.alerts ∧
      after.log = journal.log ++ [{ cycle, value := out.value, committed := out.committed }] := by
  obtain ⟨out, called, rfl⟩ := Option.map_eq_some_iff.mp taken
  exact ⟨out, called, rfl, rfl⟩

omit [NumberText] in
theorem Journal.cycles_snoc {entry : Entry} (logged : after.log = journal.log ++ [entry]) :
    after.cycles id =
      if entry.cycle.plugin = id then journal.cycles id ++ [entry] else journal.cycles id := by
  unfold Journal.cycles
  rw [logged, List.filter_append]
  by_cases own : entry.cycle.plugin = id <;> simp [own]

omit [NumberText] in
theorem lastNow_snoc (entries : List Entry) (entry : Entry) :
    lastNow (entries ++ [entry]) = some entry.cycle.now := by
  simp [lastNow]

section Call

variable {alerts : Alerts} {out : Observed}

theorem Observes.plugins (observes : Observes config alerts cycle out minDuration) :
    ∀ event ∈ out.committed, event.plugin = cycle.plugin := by
  intro event member
  by_contra foreign
  have silent := (observes.other event.stateKey foreign).2
  simp only [changesOf, List.map_eq_nil_iff, List.filter_eq_nil_iff, decide_eq_true_eq] at silent
  exact silent event member rfl

theorem observe_recorded (coherent : alerts.inner.Coherent)
    (called : alerts.observe config cycle = some out) :
    Entry.Recorded config { cycle, value := out.value, committed := out.committed } := by
  cases watching : watched config cycle.plugin with
  | false =>
      rw [observe_unwatched watching, Option.some.injEq] at called
      subst called
      exact ⟨fun _ => rfl, by simp, by simp [watching], by simp [watching]⟩
  | true =>
      obtain ⟨minDuration, observes⟩ := observe_watched coherent watching called
      exact ⟨by simp [watching], observes.plugins, fun _ => observes.levels,
        fun _ => ⟨minDuration, observes.window⟩⟩

end Call

theorem Journal.Tracks.step_unwatched (tracks : journal.Tracks config)
    (ignored : watched config cycle.plugin = false) {entry : Entry} (named : entry.cycle = cycle)
    (recorded : entry.Recorded config) (alerted : after.alerts = journal.alerts)
    (logged : after.log = journal.log ++ [entry]) : after.Tracks config := by
  have others : ∀ id, watched config id = true → after.cycles id = journal.cycles id := by
    intro id watching
    rw [Journal.cycles_snoc logged, if_neg]
    intro own
    subst own
    simp [named, ignored] at watching
  refine ⟨alerted ▸ tracks.coherent, fun id watching => ?_, fun sk window watching known => ?_, ?_⟩
  · rw [others id watching, alerted]
    exact tracks.lastSeen id watching
  · rw [others sk.plugin watching, alerted]
    exact tracks.triples sk window watching known
  · rw [logged]
    simpa [or_imp, forall_and, recorded] using tracks.recorded

theorem Journal.Tracks.step_watched (tracks : journal.Tracks config) {out : Observed}
    (observes : Observes config journal.alerts cycle out minDuration)
    (recorded : Entry.Recorded config { cycle, value := out.value, committed := out.committed })
    (alerted : after.alerts = out.alerts)
    (logged : after.log = journal.log ++ [{ cycle, value := out.value, committed := out.committed }]) :
    after.Tracks config := by
  refine ⟨alerted ▸ observes.coherent, fun id watched => ?_, fun sk window watched known => ?_, ?_⟩
  · rw [alerted, observes.lastSeen, Journal.cycles_snoc logged]
    by_cases own : cycle.plugin = id
    · rw [if_pos own.symm, if_pos own, lastNow_snoc]
    · rw [if_neg (Ne.symm own), if_neg own]
      exact tracks.lastSeen id watched
  · rw [alerted, Journal.cycles_snoc logged]
    by_cases own : sk.plugin = cycle.plugin
    · obtain rfl : minDuration = window := by
        rw [own, observes.window, Option.some.injEq] at known
        exact known
      have round := observes.own sk own
      rw [← own, tracks.lastSeen sk.plugin watched] at round
      rw [if_pos own.symm, tripleRounds_snoc, Debouncer.run_append,
        tracks.triples sk minDuration watched known]
      simp [Debouncer.run, round]
    · rw [if_neg (Ne.symm own), (observes.other sk own).1]
      exact tracks.triples sk window watched known
  · rw [logged]
    simpa [or_imp, forall_and, recorded] using tracks.recorded

theorem Journal.Tracks.step (tracks : journal.Tracks config)
    (taken : (alertsSystem config hostname).step journal cycle = some after) :
    after.Tracks config := by
  obtain ⟨out, called, alerted, logged⟩ := alertsSystem_step taken
  have recorded := observe_recorded tracks.coherent called
  cases watching : watched config cycle.plugin with
  | false =>
      rw [observe_unwatched watching, Option.some.injEq] at called
      subst called
      exact tracks.step_unwatched watching rfl recorded alerted logged
  | true =>
      obtain ⟨minDuration, observes⟩ := observe_watched tracks.coherent watching called
      exact tracks.step_watched observes recorded alerted logged

/-- Every run keeps the log and the state in step. -/
theorem alertsSystem_tracks {cycles : List Cycle}
    (ran : (alertsSystem config hostname).run (alertsSystem config hostname).init cycles =
      some journal) :
    journal.Tracks config :=
  TransitionSystem.run_invariant (fun _ _ _ tracks taken => Journal.Tracks.step tracks taken)
    Journal.tracks_initial ran

theorem alertsSystem_cycles {cycles : List Cycle} {before : Journal}
    (ran : (alertsSystem config hostname).run before cycles = some journal) :
    journal.log.map Entry.cycle = before.log.map Entry.cycle ++ cycles := by
  induction cycles generalizing before with
  | nil => cases ran; simp
  | cons cycle rest ih =>
      obtain ⟨next, taken, continued⟩ := Option.bind_eq_some_iff.mp ran
      obtain ⟨out, _, _, logged⟩ := alertsSystem_step taken
      rw [ih continued, logged]
      simp

theorem tripleRounds_length (entries : List Entry) (lastSeen : Option Instant) :
    (tripleRounds config sk lastSeen entries).length = entries.length := by
  induction entries generalizing lastSeen with
  | nil => rfl
  | cons entry later ih => simp [tripleRounds, ih]

theorem tripleRounds_split {entries : List Entry} {lastSeen : Option Instant}
    {first second : List (Round Level Instant Float)} {round : Round Level Instant Float}
    (split : tripleRounds config sk lastSeen entries = first ++ round :: second) :
    ∃ before entry after seen, entries = before ++ entry :: after ∧
      round = tripleRound config seen entry.cycle sk ∧
      second = tripleRounds config sk (some entry.cycle.now) after := by
  induction first generalizing entries lastSeen with
  | nil =>
      cases entries with
      | nil => cases split
      | cons entry after =>
          rw [tripleRounds, List.nil_append, List.cons.injEq] at split
          exact ⟨[], entry, after, lastSeen, rfl, split.1.symm, split.2.symm⟩
  | cons skipped first ih =>
      cases entries with
      | nil => cases split
      | cons entry later =>
          rw [tripleRounds, List.cons_append, List.cons.injEq] at split
          obtain ⟨before, found, after, seen, rfl, same, rest⟩ := ih split.2
          exact ⟨entry :: before, found, after, seen, rfl, same, rest⟩

/-- What a logged cycle committed for a triple is the output of its round, from
the state the earlier cycles lead to. -/
theorem Journal.Tracks.round_at (tracks : journal.Tracks config)
    (watching : watched config sk.plugin = true)
    (window : effectiveMinDuration config sk.plugin = some minDuration)
    {earlier later : List Entry} {entry : Entry}
    (split : journal.cycles sk.plugin = earlier ++ entry :: later) :
    changesOf sk entry.committed =
      ((Debouncer.run (elapsed minDuration) .ok { committed := .ok }
          (tripleRounds config sk none earlier)).1.step (elapsed minDuration) .ok
        (tripleRound config (lastNow earlier) entry.cycle sk)).2 := by
  have outputs := congrArg Prod.snd (tracks.triples sk minDuration watching window)
  rw [split, tripleRounds_append, Option.or_none, Debouncer.run_append, List.map_append] at outputs
  have aligned := (List.append_inj outputs (by
    rw [Debouncer.run_length, tripleRounds_length, List.length_map])).2
  simp only [tripleRounds, Debouncer.run, List.map_cons, List.cons.injEq] at aligned
  exact aligned.1.symm

end GlancesRs
