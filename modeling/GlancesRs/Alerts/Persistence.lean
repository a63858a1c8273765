import GlancesRs.Alerts.Journal
import GlancesRs.Alerts.Scan

namespace GlancesRs

open Data

/-! What a journaled event says about the cycles before it: its level stood
unchallenged for the whole window. Cycles that publish no level for the field
neither count nor break the window. -/

section Runs

variable [NumberText] {config : Config} {id : PluginId} {sk : StateKey} {minDuration : Duration}
variable {hostname : String} {journal : Journal} {cycles : List Cycle} {event : Event}
variable {earlier later : List Entry} {entry : Entry} {level : Level} {lastSeen : Option Instant}

def Entry.shows (entry : Entry) (sk : StateKey) : Option String :=
  levelIn entry.value sk.key sk.field

/-- The triple's item was in the payload; always so for a scalar plugin. -/
def Entry.Present (entry : Entry) (sk : StateKey) : Prop :=
  presented sk.plugin sk.key entry.cycle.payload ≠ []

theorem present_of_sample {sample : Level × Float} (own : entry.cycle.plugin = sk.plugin)
    (member : sample ∈ (tripleRound config lastSeen entry.cycle sk).samples) : entry.Present sk := by
  simp only [tripleRound, own] at member
  exact presented_of_sample member

theorem shows_eq (lastSeen : Option Instant) (recorded : entry.Recorded config)
    (watching : watched config sk.plugin = true)
    (own : entry.cycle.plugin = sk.plugin) (keyed : sk.WellKeyed)
    (distinct : DistinctKeys entry.cycle.plugin entry.cycle.payload) :
    entry.shows sk = (tripleRound config lastSeen entry.cycle sk).samples.getLast?.map
      fun sample => sample.1.asStr := by
  rw [own] at distinct
  have published := recorded.levels (own ▸ watching)
  rw [own] at published
  simpa [tripleRound, own, Entry.shows] using levelIn_eq keyed distinct published

theorem shows_of_sample (recorded : entry.Recorded config)
    (watching : watched config sk.plugin = true) (own : entry.cycle.plugin = sk.plugin)
    (distinct : DistinctKeys entry.cycle.plugin entry.cycle.payload)
    (sampled : ∃ sample ∈ (tripleRound config lastSeen entry.cycle sk).samples, sample.1 = level) :
    entry.shows sk = some level.asStr := by
  obtain ⟨sample, member, rfl⟩ := sampled
  have keyed : sk.WellKeyed := by
    simp only [tripleRound, own] at member
    exact wellKeyed_of_sample member
  have alone : (tripleRound config lastSeen entry.cycle sk).samples.length ≤ 1 := by
    simp only [tripleRound, own]
    exact samples_length_le (own ▸ distinct)
  rw [shows_eq lastSeen recorded watching own keyed distinct]
  obtain ⟨only, single⟩ := List.length_eq_one_iff.mp
    (Nat.le_antisymm alone (List.length_pos_of_mem member))
  rw [single] at member ⊢
  obtain rfl : sample = only := by simpa using member
  rfl

theorem unbroken_cycles {entries : List Entry} (keyed : sk.WellKeyed)
    (watching : watched config sk.plugin = true)
    (recorded : ∀ entry ∈ entries, entry.Recorded config)
    (own : ∀ entry ∈ entries, entry.cycle.plugin = sk.plugin)
    (distinct : ∀ entry ∈ entries, DistinctKeys entry.cycle.plugin entry.cycle.payload)
    (unbroken : Debouncer.Unbroken level (tripleRounds config sk lastSeen entries)) :
    ∀ entry ∈ entries, entry.Present sk ∧ ∀ shown ∈ entry.shows sk, shown = level.asStr := by
  induction entries generalizing lastSeen with
  | nil => simp
  | cons first rest ih =>
      simp only [List.forall_mem_cons] at recorded own distinct ⊢
      simp only [tripleRounds, Debouncer.Unbroken, List.forall_mem_cons] at unbroken
      obtain ⟨⟨_, remembered, uniform⟩, tail⟩ := unbroken
      refine ⟨⟨presented_of_remembered keyed own.1 remembered, ?_⟩,
        ih recorded.2 own.2 distinct.2 tail⟩
      intro shown known
      rw [shows_eq lastSeen recorded.1 watching own.1 keyed distinct.1,
        Option.mem_def, Option.map_eq_some_iff] at known
      obtain ⟨sample, last, rfl⟩ := known
      rw [uniform sample (List.mem_of_getLast? last)]

/-- What a run says of each cycle of one plugin. -/
theorem cycles_recorded
    (ran : (alertsSystem config hostname).run (alertsSystem config hostname).init cycles =
      some journal)
    (distinct : ∀ cycle ∈ cycles, DistinctKeys cycle.plugin cycle.payload) :
    ∀ entry ∈ journal.cycles id, entry.Recorded config ∧ entry.cycle.plugin = id ∧
      DistinctKeys entry.cycle.plugin entry.cycle.payload := by
  intro entry member
  obtain ⟨logged, own⟩ := List.mem_filter.mp member
  have scheduled := alertsSystem_cycles ran
  simp only [alertsSystem, List.map_nil, List.nil_append] at scheduled
  exact ⟨(alertsSystem_tracks ran).recorded entry logged, of_decide_eq_true own,
    distinct entry.cycle (scheduled ▸ List.mem_map_of_mem logged)⟩

/-- No event without its window: some earlier cycle, at least `min_duration`
before, published the event's level, and no cycle of the plugin from there on
published another one or missed the item. -/
theorem journaled_persisted
    (ran : (alertsSystem config hostname).run (alertsSystem config hostname).init cycles =
      some journal)
    (distinct : ∀ cycle ∈ cycles, DistinctKeys cycle.plugin cycle.payload)
    (window : effectiveMinDuration config id = some minDuration) (positive : 0 < minDuration.nanos)
    (split : journal.cycles id = earlier ++ entry :: later) (journaled : event ∈ entry.committed) :
    ∃ before opening between, earlier = before ++ opening :: between ∧
      opening.cycle.now + minDuration.nanos ≤ entry.cycle.now ∧
      opening.shows event.stateKey = some event.level.asStr ∧
      entry.shows event.stateKey = some event.level.asStr ∧
      (∀ middle ∈ between, ∀ shown ∈ middle.shows event.stateKey, shown = event.level.asStr) ∧
      ∀ cycle ∈ opening :: between ++ [entry], cycle.Present event.stateKey := by
  have known : ∀ cycle ∈ journal.cycles id, _ := cycles_recorded ran distinct
  rw [split] at known
  obtain ⟨recorded, atEntry, keys⟩ := known entry (by simp)
  obtain rfl : event.stateKey.plugin = id := (recorded.plugins event journaled).trans atEntry
  have watching := (recorded.source journaled rfl).2.1
  have output := mem_changesOf journaled
  rw [(alertsSystem_tracks ran).round_at watching window split] at output
  obtain ⟨⟨first, round, second, rounds, ripe, sampled, unbroken⟩, remembered, shown⟩ :=
    Debouncer.run_change (elapsed_self positive _) output
  obtain ⟨before, opening, between, seen, rfl, rfl, rfl⟩ := tripleRounds_split rounds
  have keyed : event.stateKey.WellKeyed := by
    obtain ⟨sample, member, _⟩ := shown
    simp only [tripleRound, atEntry] at member
    exact wellKeyed_of_sample member
  have within : ∀ cycle ∈ between, cycle ∈ before ++ opening :: between ++ entry :: later := by
    simp +contextual
  obtain ⟨openingRecorded, atOpening, openingKeys⟩ := known opening (by simp)
  have middle := unbroken_cycles keyed watching (fun cycle inside => (known cycle (within cycle inside)).1)
    (fun cycle inside => (known cycle (within cycle inside)).2.1)
    (fun cycle inside => (known cycle (within cycle inside)).2.2) unbroken
  refine ⟨before, opening, between, rfl, ?_, ?_, ?_, fun cycle inside => (middle cycle inside).2, ?_⟩
  · have due : minDuration.nanos ≤ entry.cycle.now - opening.cycle.now := of_decide_eq_true ripe
    omega
  · exact shows_of_sample openingRecorded watching atOpening openingKeys sampled
  · exact shows_of_sample recorded watching atEntry keys shown
  · intro cycle inside
    obtain rfl | inner | rfl : cycle = opening ∨ cycle ∈ between ∨ cycle = entry := by
      simpa using inside
    · obtain ⟨sample, member, _⟩ := sampled
      exact present_of_sample atOpening member
    · exact (middle cycle inner).1
    · exact presented_of_remembered keyed atEntry remembered

end Runs

def busyMemory : Config where
  plugins := AList.singleton "mem" {
    thresholds := AList.singleton "percent" { critical := some 90 } }

def memoryCycle (seconds : ℕ) : Cycle where
  plugin := .mem
  now := seconds * 10 ^ 9
  nowSys := 0
  payload := .object [("percent", .number (.float 95))]

theorem busyMemory_journaled_persisted :
    ∃ journal, ∃ opening entry : Entry, ∃ event : Event,
      (@alertsSystem .integers busyMemory "h").run (@alertsSystem .integers busyMemory "h").init
        [memoryCycle 0, memoryCycle 2, memoryCycle 4, memoryCycle 6] = some journal ∧
      entry ∈ journal.log ∧ event ∈ entry.committed ∧
      opening.cycle.now + 5 * 10 ^ 9 ≤ entry.cycle.now ∧
      opening.shows event.stateKey = some event.level.asStr := by
  have committed : ((@alertsSystem .integers busyMemory "h").run
      (@alertsSystem .integers busyMemory "h").init
      [memoryCycle 0, memoryCycle 2, memoryCycle 4, memoryCycle 6]).map
        (fun journal => (journal.cycles .mem).map fun entry => entry.committed.length) =
      some [0, 0, 0, 1] := by
    decide +kernel
  obtain ⟨journal, ran, lengths⟩ := Option.map_eq_some_iff.mp committed
  simp only [List.map_eq_cons_iff, List.map_eq_nil_iff] at lengths
  obtain ⟨first, _, split, _, second, _, rfl, _, third, _, rfl, _, entry, _, rfl, one, rfl⟩ := lengths
  obtain ⟨event, only⟩ := List.length_eq_one_iff.mp one
  have journaled : event ∈ entry.committed := by simp [only]
  obtain ⟨before, opening, between, _, due, shown, _⟩ :=
    @journaled_persisted .integers _ .mem ⟨5 * 10 ^ 9, by decide⟩ _ _ _ _ [first, second, third] []
      entry ran (by simp [DistinctKeys, memoryCycle, PluginId.keyField]) (by decide +kernel)
      (by decide) split journaled
  have member : entry ∈ journal.cycles .mem := by simp [split]
  exact ⟨journal, opening, entry, event, ran, (List.mem_filter.mp member).1, journaled, due, shown⟩

/-- Every cycle of the window publishes the level: what cycles without a divisor
keep the journal from promising. -/
def Journal.VisibleThroughout (journal : Journal) (id : PluginId) (minDuration : Duration) : Prop :=
  ∀ earlier entry later event, journal.cycles id = earlier ++ entry :: later →
    event ∈ entry.committed →
    ∃ before opening between, earlier = before ++ opening :: between ∧
      opening.cycle.now + minDuration.nanos ≤ entry.cycle.now ∧
      ∀ cycle ∈ opening :: between ++ [entry], cycle.shows event.stateKey = some event.level.asStr

def busyLink : Config where
  plugins := AList.singleton "network" {
    thresholds := AList.singleton "bytes_recv" { warning := some 0.8 } }

def linkCycle (seconds : ℕ) (capacity : Float) : Cycle where
  plugin := .network
  now := seconds * 10 ^ 9
  nowSys := 0
  payload := .object [("data", .array [.object [("bytes_recv", .number (.float 90)),
    ("bytes_speed_rate_per_sec", .number (.float capacity)), ("interface_name", .string "eth0")]])]

/-- With the capacity unknown in the second cycle that cycle has no level, and
the event is journaled all the same. -/
theorem busyLink_not_visibleThroughout :
    ∃ journal,
      (@alertsSystem .integers busyLink "h").run (@alertsSystem .integers busyLink "h").init
        [linkCycle 0 100, linkCycle 2 0, linkCycle 4 100, linkCycle 6 100] = some journal ∧
      effectiveMinDuration busyLink .network = some ⟨5 * 10 ^ 9, by decide⟩ ∧
      ¬ journal.VisibleThroughout .network ⟨5 * 10 ^ 9, by decide⟩ := by
  have evaluated : ((@alertsSystem .integers busyLink "h").run
      (@alertsSystem .integers busyLink "h").init
      [linkCycle 0 100, linkCycle 2 0, linkCycle 4 100, linkCycle 6 100]).map
        (fun journal => (journal.cycles .network).map fun entry =>
          (entry.cycle.now, entry.shows ⟨.network, some "eth0", "bytes_recv"⟩,
            entry.committed.map Event.stateKey)) =
      some [(0, some "warning", []), (2 * 10 ^ 9, none, []), (4 * 10 ^ 9, some "warning", []),
        (6 * 10 ^ 9, some "warning", [⟨.network, some "eth0", "bytes_recv"⟩])] := by
    decide +kernel
  obtain ⟨journal, ran, shown⟩ := Option.map_eq_some_iff.mp evaluated
  refine ⟨journal, ran, by decide +kernel, fun visible => ?_⟩
  simp only [List.map_eq_cons_iff, List.map_eq_nil_iff, Prod.mk.injEq] at shown
  obtain ⟨first, _, split, ⟨atFirst, _, _⟩, second, _, rfl, ⟨atSecond, hidden, _⟩, third, _, rfl,
    ⟨atThird, _, _⟩, entry, _, rfl, ⟨atEntry, _, event, _, journaled, named, _⟩, rfl⟩ := shown
  obtain ⟨before, opening, between, shape, due, levels⟩ :=
    visible [first, second, third] entry [] event split (by simp [journaled])
  simp only [named] at levels
  -- The window needs the first cycle, and so contains the second one.
  match before, shape with
  | [], shape =>
      obtain ⟨rfl, rfl⟩ := List.cons.inj shape
      simpa [hidden] using levels second (by simp)
  | [_], shape =>
      obtain ⟨_, tail⟩ := List.cons.inj shape
      obtain ⟨rfl, _⟩ := List.cons.inj tail
      simpa [hidden] using levels second (by simp)
  | [_, _], shape =>
      obtain ⟨_, tail⟩ := List.cons.inj shape
      obtain ⟨_, last⟩ := List.cons.inj tail
      obtain ⟨rfl, _⟩ := List.cons.inj last
      simp only [atThird, atEntry] at due
      omega
  | _ :: _ :: _ :: _, shape => simp at shape

end GlancesRs
