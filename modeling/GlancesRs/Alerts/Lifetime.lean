import GlancesRs.Alerts.Independence
import GlancesRs.Alerts.Persistence
import GlancesRs.Config.Validated
import GlancesRs.Data.Lifetime

namespace GlancesRs

open Data

/-! The events of one triple while its item stays: they chain, and only the
first of them can be initial. An item that leaves takes its state along. -/

def eventsOf (sk : StateKey) (entries : List Entry) : List Event :=
  (entries.flatMap Entry.committed).filter fun event => event.stateKey = sk

structure EventChain (events : List Event) : Prop where
  first : ∀ event ∈ events.head?, event.previousLevel = .ok
  linked : events.IsChain fun earlier later => later.previousLevel = earlier.level
  changes : ∀ event ∈ events, event.level ≠ event.previousLevel

section Events

variable {sk : StateKey} {entry : Entry} {event : Event}

theorem eventsOf_cons (entry : Entry) (rest : List Entry) :
    eventsOf sk (entry :: rest) =
      (entry.committed.filter fun event => event.stateKey = sk) ++ eventsOf sk rest := by
  rw [eventsOf, List.flatMap_cons, List.filter_append]
  rfl

theorem eventsOf_changes (entries : List Entry) :
    (eventsOf sk entries).map Event.change =
      (entries.map fun entry => changesOf sk entry.committed).flatten := by
  induction entries with
  | nil => rfl
  | cons entry rest ih =>
      rw [eventsOf_cons, List.map_append, ih]
      rfl

theorem mem_eventsOf {entries : List Entry} :
    event ∈ eventsOf sk entries ↔
      ∃ entry ∈ entries, event ∈ entry.committed ∧ event.stateKey = sk := by
  simp only [eventsOf, List.mem_filter, List.mem_flatMap, decide_eq_true_eq]
  constructor
  · intro parts
    obtain ⟨⟨entry, member, journaled⟩, named⟩ := parts
    exact ⟨entry, member, journaled, named⟩
  · intro parts
    obtain ⟨entry, member, journaled, named⟩ := parts
    exact ⟨⟨entry, member, journaled⟩, named⟩

theorem mem_changesOf_of_named (journaled : event ∈ entry.committed) (named : event.stateKey = sk) :
    event.change ∈ changesOf sk entry.committed :=
  named ▸ mem_changesOf journaled

theorem EventChain.of_chained {events : List Event} {final : Level}
    (chained : Debouncer.Chained .ok (events.map Event.change) final) : EventChain events where
  first event leads := by
    have first := chained.head
    rw [List.head?_map] at first
    exact first event.change (Option.mem_map_of_mem _ leads)
  linked := (List.isChain_map Event.change).mp chained.isChain
  changes event member := chained.differs event.change (List.mem_map_of_mem member)

end Events

section Runs

variable [NumberText] {config : Config} {sk : StateKey} {minDuration : Duration}
variable {hostname : String} {before journal : Journal} {entry : Entry} {event : Event}
variable {earlier stretch later added : List Entry} {cycles : List Cycle}

/-- The levels and values observed for a triple in a cycle, in payload order. -/
def Entry.samples (config : Config) (entry : Entry) (sk : StateKey) : List (Level × Float) :=
  samplesOf entry.cycle.plugin sk (scan config entry.cycle.plugin entry.cycle.payload).observations

theorem Journal.Tracks.events_own (tracks : journal.Tracks config)
    (logged : ∀ entry ∈ added, entry ∈ journal.log) :
    eventsOf sk added = eventsOf sk (added.filter fun entry => entry.cycle.plugin = sk.plugin) := by
  induction added with
  | nil => rfl
  | cons entry rest ih =>
      rw [List.forall_mem_cons] at logged
      have tail := ih logged.2
      by_cases own : entry.cycle.plugin = sk.plugin
      · rw [List.filter_cons_of_pos (by simpa using own), eventsOf_cons, eventsOf_cons, tail]
      · have foreign : entry.committed.filter (fun event => event.stateKey = sk) = [] := by
          refine List.filter_eq_nil_iff.mpr fun event journaled named => own ?_
          exact ((tracks.recorded entry logged.1).source journaled (of_decide_eq_true named)).1
        rw [List.filter_cons_of_neg (by simpa using own), eventsOf_cons, foreign, List.nil_append, tail]

/-- The state a triple's debouncer is in after some of its plugin's cycles. -/
def debouncerAfter (config : Config) (minDuration : Duration) (sk : StateKey) (entries : List Entry) :
    Debouncer Level Instant :=
  (Debouncer.run (elapsed minDuration) .ok { committed := .ok } (tripleRounds config sk none entries)).1

/-- What a stretch of cycles commits for a triple is the run of its rounds. -/
theorem Journal.Tracks.stretch_run (tracks : journal.Tracks config)
    (watching : watched config sk.plugin = true)
    (window : effectiveMinDuration config sk.plugin = some minDuration)
    (split : journal.cycles sk.plugin = earlier ++ stretch ++ later) :
    ((debouncerAfter config minDuration sk earlier).run (elapsed minDuration) .ok
        (tripleRounds config sk (lastNow earlier) stretch)).2 =
      stretch.map fun entry => changesOf sk entry.committed := by
  have outputs := congrArg Prod.snd (tracks.triples sk minDuration watching window)
  rw [split, List.append_assoc, tripleRounds_append, Option.or_none, tripleRounds_append,
    Debouncer.run_append, Debouncer.run_append, List.map_append, List.map_append] at outputs
  have aligned := (List.append_inj outputs (by
    rw [Debouncer.run_length, tripleRounds_length, List.length_map])).2
  exact (List.append_inj aligned (by
    rw [Debouncer.run_length, tripleRounds_length, List.length_map])).1

theorem rounds_remembered {lastSeen : Option Instant}
    (own : ∀ entry ∈ stretch, entry.cycle.plugin = sk.plugin)
    (present : ∀ entry ∈ stretch, entry.Present sk) :
    ∀ round ∈ tripleRounds config sk lastSeen stretch, round.forget = false := by
  induction stretch generalizing lastSeen with
  | nil => simp [tripleRounds]
  | cons entry rest ih =>
      rw [List.forall_mem_cons] at own present
      refine List.forall_mem_cons.mpr ⟨remembered_of_presented own.1 present.1, ?_⟩
      exact ih own.2 present.2

theorem rounds_samples {lastSeen : Option Instant} {sample : Level × Float} (member : entry ∈ stretch)
    (sampled : sample ∈ entry.samples config sk) :
    ∃ round ∈ tripleRounds config sk lastSeen stretch, sample ∈ round.samples := by
  induction stretch generalizing lastSeen with
  | nil => cases member
  | cons first rest ih =>
      rcases List.mem_cons.mp member with rfl | inside
      · exact ⟨_, List.mem_cons_self, sampled⟩
      · obtain ⟨round, known, shown⟩ := ih inside
        exact ⟨round, List.mem_cons_of_mem _ known, shown⟩

/-- The output of one cycle, from the state the earlier cycles of its stretch
lead to. -/
theorem Journal.Tracks.stretch_step (tracks : journal.Tracks config)
    (watching : watched config sk.plugin = true)
    (window : effectiveMinDuration config sk.plugin = some minDuration) {between after : List Entry}
    (split : journal.cycles sk.plugin = earlier ++ (between ++ entry :: after) ++ later) :
    changesOf sk entry.committed =
      (((debouncerAfter config minDuration sk earlier).run (elapsed minDuration) .ok
          (tripleRounds config sk (lastNow earlier) between)).1.step (elapsed minDuration) .ok
        (tripleRound config (lastNow (earlier ++ between)) entry.cycle sk)).2 := by
  have located : journal.cycles sk.plugin = (earlier ++ between) ++ entry :: (after ++ later) := by
    simp [split]
  rw [tracks.round_at watching window located, tripleRounds_append, Option.or_none,
    Debouncer.run_append]
  rfl

/-- While the item stays, the changes of its triple chain on from where the
stretch found the debouncer. -/
theorem Journal.Tracks.stretch_chained (tracks : journal.Tracks config)
    (watching : watched config sk.plugin = true)
    (window : effectiveMinDuration config sk.plugin = some minDuration)
    (split : journal.cycles sk.plugin = earlier ++ stretch ++ later)
    (own : ∀ entry ∈ stretch, entry.cycle.plugin = sk.plugin)
    (present : ∀ entry ∈ stretch, entry.Present sk) :
    ∃ final, Debouncer.Chained (debouncerAfter config minDuration sk earlier).committed
      ((eventsOf sk stretch).map Event.change) final := by
  rw [eventsOf_changes, ← tracks.stretch_run watching window split]
  exact ⟨_, Debouncer.run_chained (rounds_remembered own present)⟩

/-- Between two cycles without the item at most one event of a triple is
initial: the first, and only if no `ok` was observed in those cycles before it. -/
theorem initial_once_per_stretch
    (ran : (alertsSystem config hostname).run (alertsSystem config hostname).init cycles =
      some journal)
    (split : journal.cycles sk.plugin = earlier ++ stretch ++ later)
    (present : ∀ entry ∈ stretch, entry.Present sk) :
    (∀ event ∈ (eventsOf sk stretch).tail, event.isInitial = false) ∧
    ∀ between entry after event, stretch = between ++ entry :: after →
      event ∈ entry.committed → event.stateKey = sk → event.isInitial = true →
        (∀ cycle ∈ between, ∀ sample ∈ cycle.samples config sk, sample.1 ≠ .ok) ∧
        ∃ front back, entry.samples config sk = front ++ (event.level, event.value) :: back ∧
          ∀ sample ∈ front, sample.1 ≠ .ok := by
  have tracks := alertsSystem_tracks ran
  have located : ∀ entry ∈ stretch, entry ∈ journal.log ∧ entry.cycle.plugin = sk.plugin := by
    intro entry member
    have cycle : entry ∈ journal.cycles sk.plugin := by simp [split, member]
    exact ⟨(List.mem_filter.mp cycle).1, of_decide_eq_true (List.mem_filter.mp cycle).2⟩
  have remembered (lastSeen : Option Instant) :
      ∀ round ∈ tripleRounds config sk lastSeen stretch, round.forget = false :=
    rounds_remembered (fun entry member => (located entry member).2) present
  have rooted (minDuration : Duration) :
      (debouncerAfter config minDuration sk earlier).Rooted .ok :=
    Debouncer.rooted_initial.run
  refine ⟨fun event member => ?_, fun between entry after event shape journaled named initial => ?_⟩
  · obtain ⟨entry, inside, journaled, named⟩ := mem_eventsOf.mp (List.mem_of_mem_tail member)
    obtain ⟨_, watching, minDuration, window⟩ :=
      (tracks.recorded entry (located entry inside).1).source journaled named
    have late := @Debouncer.run_tail _ _ _ (elapsed minDuration) .ok
      (debouncerAfter config minDuration sk earlier) _ _ (remembered (lastNow earlier))
    rw [tracks.stretch_run watching window split, ← eventsOf_changes, ← List.map_tail] at late
    exact late event.change (List.mem_map_of_mem member)
  · subst shape
    obtain ⟨own, watching, minDuration, window⟩ :=
      (tracks.recorded entry (located entry (by simp)).1).source journaled named
    have output := mem_changesOf_of_named journaled named
    rw [tracks.stretch_step watching window split] at output
    have before : ∀ round ∈ tripleRounds config sk (lastNow earlier) between, round.forget = false :=
      rounds_remembered (fun entry member => (located entry (by simp [member])).2)
        (fun entry member => present entry (by simp [member]))
    obtain ⟨quiet, front, back, sampled, fronted⟩ :=
      Debouncer.run_initial before (remembered_of_presented own (present entry (by simp)))
        (rooted minDuration) output initial
    refine ⟨fun cycle member sample inside => ?_, front, back, sampled, fronted⟩
    obtain ⟨round, known, shown⟩ := @rounds_samples _ config sk _ _ (lastNow earlier) _ member inside
    exact quiet round known sample shown

theorem alertsSystem_extends
    (continued : (alertsSystem config hostname).run before cycles = some journal) :
    ∃ added, journal.log = before.log ++ added ∧ added.map Entry.cycle = cycles := by
  induction cycles generalizing before with
  | nil =>
      cases continued
      exact ⟨[], by simp, rfl⟩
  | cons cycle rest ih =>
      obtain ⟨next, taken, continued⟩ := Option.bind_eq_some_iff.mp continued
      obtain ⟨out, _, _, logged⟩ := alertsSystem_step taken
      obtain ⟨added, extended, scheduled⟩ := ih continued
      refine ⟨{ cycle, value := out.value, committed := out.committed } :: added, ?_, ?_⟩
      · rw [extended, logged, List.append_assoc, List.singleton_append]
      · rw [List.map_cons, scheduled]

/-- With distinct keys a cycle has at most one event of a triple, and publishes
its level. -/
theorem Journal.Tracks.cycle_shows (tracks : journal.Tracks config) (logged : entry ∈ journal.log)
    (distinct : DistinctKeys entry.cycle.plugin entry.cycle.payload)
    (journaled : event ∈ entry.committed) (named : event.stateKey = sk) :
    (changesOf sk entry.committed).length ≤ 1 ∧ entry.shows sk = some event.level.asStr := by
  obtain ⟨own, watching, minDuration, window⟩ := (tracks.recorded entry logged).source journaled named
  have cycle : entry ∈ journal.cycles sk.plugin :=
    List.mem_filter.mpr ⟨logged, decide_eq_true own⟩
  obtain ⟨first, last, split⟩ := List.append_of_mem cycle
  have output := tracks.round_at watching window split
  refine ⟨?_, ?_⟩
  · rw [output]
    refine Debouncer.observeAll_length.trans ?_
    simp only [tripleRound, own]
    exact samples_length_le (own ▸ distinct)
  · have change := mem_changesOf_of_named journaled named
    rw [output] at change
    exact shows_of_sample (tracks.recorded entry logged) watching own distinct
      (Debouncer.observeAll_shown change)

theorem Journal.Tracks.eventsOf_single_length (tracks : journal.Tracks config)
    (logged : entry ∈ journal.log)
    (distinct : DistinctKeys entry.cycle.plugin entry.cycle.payload) :
    (eventsOf sk [entry]).length ≤ 1 := by
  by_cases silent : eventsOf sk [entry] = []
  · simp [silent]
  · obtain ⟨event, inside⟩ := List.exists_mem_of_ne_nil _ silent
    obtain ⟨source, only, journaled, named⟩ := mem_eventsOf.mp inside
    obtain rfl : entry = source := (List.mem_singleton.mp only).symm
    have alone := (tracks.cycle_shows logged distinct journaled named).1
    rw [← List.length_map Event.change, eventsOf_changes]
    simpa using alone

/-- A stretch that finds the triple without a state chains its events from `ok`. -/
theorem Journal.Tracks.fresh_chain (tracks : journal.Tracks config)
    (split : journal.cycles sk.plugin = earlier ++ stretch ++ later)
    (fresh : ∀ minDuration, watched config sk.plugin = true →
      effectiveMinDuration config sk.plugin = some minDuration →
      debouncerAfter config minDuration sk earlier = { committed := .ok })
    (own : ∀ entry ∈ stretch, entry.cycle.plugin = sk.plugin)
    (present : ∀ entry ∈ stretch, entry.Present sk) : EventChain (eventsOf sk stretch) := by
  by_cases silent : eventsOf sk stretch = []
  · rw [silent]
    exact ⟨by simp, .nil, by simp⟩
  · obtain ⟨event, member⟩ := List.exists_mem_of_ne_nil _ silent
    obtain ⟨entry, inside, journaled, named⟩ := mem_eventsOf.mp member
    have located : entry ∈ journal.cycles sk.plugin := by simp [split, inside]
    obtain ⟨_, watching, minDuration, window⟩ :=
      (tracks.recorded entry (List.mem_filter.mp located).1).source journaled named
    obtain ⟨final, chained⟩ := tracks.stretch_chained watching window split own present
    rw [fresh minDuration watching window] at chained
    exact EventChain.of_chained chained

/-- From no state on, and as long as its item stays, the events of a triple form
a chain; each is the only one of its cycle and carries the level the cycle
publishes. -/
theorem events_chain {past : List Cycle}
    (reached : (alertsSystem config hostname).run (alertsSystem config hostname).init past =
      some before)
    (fresh : before.alerts.inner.state sk = none)
    (continued : (alertsSystem config hostname).run before cycles = some journal)
    (distinct : ∀ cycle ∈ cycles, DistinctKeys cycle.plugin cycle.payload)
    (present : ∀ cycle ∈ cycles, cycle.plugin = sk.plugin →
      presented sk.plugin sk.key cycle.payload ≠ []) :
    ∃ added, journal.log = before.log ++ added ∧ added.map Entry.cycle = cycles ∧
      EventChain (eventsOf sk added) ∧
      ∀ entry ∈ added, (eventsOf sk [entry]).length ≤ 1 ∧
        ∀ event ∈ entry.committed, event.stateKey = sk →
          entry.shows sk = some event.level.asStr := by
  obtain ⟨added, extended, scheduled⟩ := alertsSystem_extends continued
  have tracks := alertsSystem_tracks (TransitionSystem.run_trans reached continued)
  have logged : ∀ entry ∈ added, entry ∈ journal.log := by
    intro entry member
    rw [extended]
    exact List.mem_append_right _ member
  have taken : ∀ entry ∈ added, entry.cycle ∈ cycles :=
    fun entry member => scheduled ▸ List.mem_map_of_mem member
  refine ⟨added, extended, scheduled, ?_, fun entry member => ⟨?_, fun event journaled named => ?_⟩⟩
  · have inner : ∀ entry ∈ added.filter fun entry => entry.cycle.plugin = sk.plugin,
        entry ∈ added ∧ entry.cycle.plugin = sk.plugin :=
      fun entry member => ⟨(List.mem_filter.mp member).1, of_decide_eq_true (List.mem_filter.mp member).2⟩
    have split : journal.cycles sk.plugin = before.cycles sk.plugin ++
        (added.filter fun entry => entry.cycle.plugin = sk.plugin) ++ [] := by
      rw [List.append_nil, Journal.cycles, extended, List.filter_append]
      rfl
    rw [tracks.events_own logged]
    refine tracks.fresh_chain split ?_ (fun entry member => (inner entry member).2) ?_
    · intro minDuration watching window
      rw [debouncerAfter, (alertsSystem_tracks reached).triples sk minDuration watching window,
        Inner.debouncer, fresh]
      rfl
    · intro entry member
      obtain ⟨inside, same⟩ := inner entry member
      exact present entry.cycle (taken entry inside) same
  · exact tracks.eventsOf_single_length (logged entry member) (distinct _ (taken entry member))
  · exact (tracks.cycle_shows (logged entry member) (distinct _ (taken entry member))
      journaled named).2

end Runs

abbrev rootUsage : StateKey := ⟨.fs, some "/", "percent"⟩

/-- One initial event per triple in the whole run, and no other before it. -/
def Journal.InitialOnce (journal : Journal) (sk : StateKey) : Prop :=
  ∀ event ∈ (eventsOf sk journal.log).tail, event.isInitial = false

/-- A disk that is unmounted and mounted again has a second initial event. -/
theorem remounted_not_initialOnce :
    ∃ journal, fullDisk.validate (.ofDocument "" fullDisk) = .ok () ∧
      (@alertsSystem .integers fullDisk "h").run (@alertsSystem .integers fullDisk "h").init
        [mounts 1 [mount "/" 95], mounts 2 [], mounts 3 [mount "/" 95]] = some journal ∧
      ¬ journal.InitialOnce rootUsage := by
  have evaluated : ((@alertsSystem .integers fullDisk "h").run
      (@alertsSystem .integers fullDisk "h").init
      [mounts 1 [mount "/" 95], mounts 2 [], mounts 3 [mount "/" 95]]).map
        (fun journal => (eventsOf rootUsage journal.log).map Event.isInitial) = some [true, true] := by
    decide +kernel
  obtain ⟨journal, ran, initials⟩ := Option.map_eq_some_iff.mp evaluated
  refine ⟨journal, by rfl, ran, fun once => ?_⟩
  simp only [List.map_eq_cons_iff, List.map_eq_nil_iff] at initials
  obtain ⟨first, _, events, _, second, _, rfl, again, rfl⟩ := initials
  simp [once second (by simp [events])] at again

theorem remounted_initial_once_per_stretch :
    ∃ journal, ∃ mounted unmounted remounted emptied : Entry,
      (@alertsSystem .integers fullDisk "h").run (@alertsSystem .integers fullDisk "h").init
        [mounts 1 [mount "/" 95], mounts 2 [], mounts 3 [mount "/" 95], mounts 4 [mount "/" 50]] =
          some journal ∧
      journal.cycles .fs = [mounted, unmounted] ++ [remounted, emptied] ++ [] ∧
      (eventsOf rootUsage [remounted, emptied]).length = 2 ∧
      ∀ event ∈ (eventsOf rootUsage [remounted, emptied]).tail, event.isInitial = false := by
  have evaluated : ((@alertsSystem .integers fullDisk "h").run
      (@alertsSystem .integers fullDisk "h").init
      [mounts 1 [mount "/" 95], mounts 2 [], mounts 3 [mount "/" 95], mounts 4 [mount "/" 50]]).map
        (fun journal => ((journal.cycles .fs).map fun entry =>
          (@presented .integers .fs (some "/") entry.cycle.payload).length,
          (eventsOf rootUsage ((journal.cycles .fs).drop 2)).length)) = some ([1, 0, 1, 1], 2) := by
    decide +kernel
  obtain ⟨journal, ran, shown⟩ := Option.map_eq_some_iff.mp evaluated
  obtain ⟨lengths, committed⟩ := Prod.mk.inj shown
  simp only [List.map_eq_cons_iff, List.map_eq_nil_iff] at lengths
  obtain ⟨mounted, _, cycles, _, unmounted, _, rfl, _, remounted, _, rfl, present, emptied, _, rfl,
    still, rfl⟩ := lengths
  rw [cycles] at committed
  refine ⟨journal, mounted, unmounted, remounted, emptied, ran, cycles, committed, ?_⟩
  refine (@initial_once_per_stretch .integers fullDisk rootUsage "h" journal [mounted, unmounted]
    [remounted, emptied] [] _ ran cycles ?_).1
  refine List.forall_mem_cons.mpr ⟨fun absent => ?_, List.forall_mem_singleton.mpr fun absent => ?_⟩
  · simp [absent] at present
  · simp [absent] at still

theorem remounted_events_chain :
    ∃ before journal added,
      (@alertsSystem .integers fullDisk "h").run (@alertsSystem .integers fullDisk "h").init
        [mounts 1 [mount "/" 95], mounts 2 []] = some before ∧
      (@alertsSystem .integers fullDisk "h").run before
        [mounts 3 [mount "/" 95], memory 4, mounts 5 [mount "/" 50]] = some journal ∧
      journal.log = before.log ++ added ∧ (eventsOf rootUsage added).length = 2 ∧
      EventChain (eventsOf rootUsage added) := by
  have evaluated : ((@alertsSystem .integers fullDisk "h").run
      (@alertsSystem .integers fullDisk "h").init
      [mounts 1 [mount "/" 95], mounts 2 []]).bind (fun before =>
        ((@alertsSystem .integers fullDisk "h").run before
          [mounts 3 [mount "/" 95], memory 4, mounts 5 [mount "/" 50]]).map fun journal =>
            (before.alerts.inner.state rootUsage,
              (eventsOf rootUsage (journal.log.drop before.log.length)).length)) = some (none, 2) := by
    decide +kernel
  obtain ⟨before, reached, continuing⟩ := Option.bind_eq_some_iff.mp evaluated
  obtain ⟨journal, continued, shown⟩ := Option.map_eq_some_iff.mp continuing
  obtain ⟨fresh, committed⟩ := Prod.mk.inj shown
  have distinct : ∀ cycle ∈ [mounts 3 [mount "/" 95], memory 4, mounts 5 [mount "/" 50]],
      @DistinctKeys .integers cycle.plugin cycle.payload := by
    simp only [List.forall_mem_cons, List.not_mem_nil, false_imp_iff, implies_true, and_true]
    refine ⟨fun pkField keyed => ?_, fun pkField keyed => ?_, fun pkField keyed => ?_⟩
    · cases keyed
      decide +kernel
    · cases keyed
    · cases keyed
      decide +kernel
  have present : ∀ cycle ∈ [mounts 3 [mount "/" 95], memory 4, mounts 5 [mount "/" 50]],
      cycle.plugin = .fs → @presented .integers .fs (some "/") cycle.payload ≠ [] := by
    simp only [List.forall_mem_cons, List.not_mem_nil, false_imp_iff, implies_true, and_true]
    refine ⟨fun _ absent => ?_, fun foreign => ?_, fun _ absent => ?_⟩
    · cases absent
    · cases foreign
    · cases absent
  obtain ⟨added, extended, _, chain, _⟩ :=
    @events_chain .integers fullDisk rootUsage "h" before journal _ _ reached fresh continued distinct
      present
  rw [extended, List.drop_left] at committed
  exact ⟨before, journal, added, reached, continued, extended, committed, chain⟩

end GlancesRs
