import GlancesRs.Alerts.Lifetime
import GlancesRs.Data.Windows

namespace GlancesRs

open Data

/-! What the journal holds, said by what the cycles published: an event for every
level that stood for its window, and no other. -/

/-- The level a reader of the journal takes a triple to be at: that of its last
event, and `ok` again once its item was missing. -/
def standingLevel [NumberText] (sk : StateKey) (entries : List Entry) : Level :=
  entries.foldl (fun level entry =>
    if (presented sk.plugin sk.key entry.cycle.payload).isEmpty then .ok
    else ((eventsOf sk [entry]).getLast?.map Event.level).getD level) .ok

/-- No cycle since the opening one came more than two periods late, missed the
item or published another level. -/
structure Undisturbed [NumberText] (twice : Duration) (sk : StateKey) (level : Level)
    (opening : Entry) (between : List Entry) : Prop where
  awake : (opening :: between).IsChain fun first second =>
    second.cycle.now ≤ first.cycle.now + twice.nanos
  present : ∀ entry ∈ between, entry.Present sk
  steady : ∀ entry ∈ between, ∀ shown ∈ entry.shows sk, shown = level.asStr

theorem Level.asStr_injective : Function.Injective Level.asStr := by
  intro first second
  cases first <;> cases second <;> decide

theorem elapsed_older {minDuration : Duration} {first second now : Instant} (older : first ≤ second)
    (due : elapsed minDuration second now = true) : elapsed minDuration first now = true := by
  have late : minDuration.nanos ≤ now - second := of_decide_eq_true due
  exact decide_eq_true (late.trans (Nat.sub_le_sub_left older now))

section Runs

variable [NumberText] {config : Config} {sk : StateKey} {minDuration twice : Duration}
variable {hostname : String} {journal : Journal} {cycles : List Cycle} {lastSeen : Option Instant}
variable {earlier later entries between : List Entry} {entry opening : Entry} {level : Level}

theorem tripleRounds_now (entries : List Entry) (lastSeen : Option Instant) :
    (tripleRounds config sk lastSeen entries).map Round.now =
      entries.map fun entry => entry.cycle.now := by
  induction entries generalizing lastSeen with
  | nil => rfl
  | cons entry later ih => simp [tripleRounds, ih, tripleRound]

omit [NumberText] in
theorem resetDue_eq_false {id : PluginId} {prev now : Instant}
    (doubled : ((config.refreshFor id.asStr).bind fun refresh => refresh.mul? 2) = some twice) :
    resetDue config id (some prev) now = false ↔ now ≤ prev + twice.nanos := by
  obtain ⟨refresh, period, twofold⟩ := Option.bind_eq_some_iff.mp doubled
  have late : resetDue config id (some prev) now = decide (twice.nanos < now - prev) := by
    simp [resetDue, period, gapReset, twofold]
  rw [late, decide_eq_false_iff_not, Nat.not_lt, Nat.sub_le_iff_le_add']

/-- What is known of a cycle of the triple's plugin. -/
structure Entry.Known (config : Config) (sk : StateKey) (entry : Entry) : Prop where
  recorded : entry.Recorded config
  own : entry.cycle.plugin = sk.plugin
  distinct : DistinctKeys entry.cycle.plugin entry.cycle.payload

theorem Entry.Known.alone (known : entry.Known config sk) (lastSeen : Option Instant) :
    (tripleRound config lastSeen entry.cycle sk).samples.length ≤ 1 := by
  simp only [tripleRound, known.own]
  exact samples_length_le (known.own ▸ known.distinct)

theorem Entry.Known.shows_iff (known : entry.Known config sk) (keyed : sk.WellKeyed)
    (watching : watched config sk.plugin = true) (lastSeen : Option Instant) :
    (∃ sample ∈ (tripleRound config lastSeen entry.cycle sk).samples, sample.1 = level) ↔
      entry.shows sk = some level.asStr := by
  refine ⟨shows_of_sample known.recorded watching known.own known.distinct, fun shown => ?_⟩
  rw [shows_eq lastSeen known.recorded watching known.own keyed known.distinct,
    Option.map_eq_some_iff] at shown
  obtain ⟨sample, last, named⟩ := shown
  exact ⟨sample, List.mem_of_getLast? last, Level.asStr_injective named⟩

theorem Entry.Known.uniform_iff (known : entry.Known config sk) (keyed : sk.WellKeyed)
    (watching : watched config sk.plugin = true) (lastSeen : Option Instant) :
    (∀ sample ∈ (tripleRound config lastSeen entry.cycle sk).samples, sample.1 = level) ↔
      ∀ shown ∈ entry.shows sk, shown = level.asStr := by
  rw [shows_eq lastSeen known.recorded watching known.own keyed known.distinct]
  match (tripleRound config lastSeen entry.cycle sk).samples, known.alone lastSeen with
  | [], _ => simp
  | [sample], _ => simp [Level.asStr_injective.eq_iff]

theorem Entry.Known.forget_iff (known : entry.Known config sk) (keyed : sk.WellKeyed)
    (lastSeen : Option Instant) :
    (tripleRound config lastSeen entry.cycle sk).forget = false ↔ entry.Present sk :=
  ⟨presented_of_remembered keyed known.own, remembered_of_presented known.own⟩

theorem Entry.Known.remembered {sample : Level × Float} (known : entry.Known config sk)
    (member : sample ∈ (tripleRound config lastSeen entry.cycle sk).samples) :
    (tripleRound config lastSeen entry.cycle sk).forget = false :=
  remembered_of_presented known.own (present_of_sample known.own member)

theorem unbroken_iff (keyed : sk.WellKeyed) (watching : watched config sk.plugin = true)
    (doubled : ((config.refreshFor sk.plugin.asStr).bind fun refresh => refresh.mul? 2) = some twice)
    (known : ∀ entry ∈ between, entry.Known config sk) :
    Debouncer.Unbroken level (tripleRounds config sk (some opening.cycle.now) between) ↔
      Undisturbed twice sk level opening between := by
  induction between generalizing opening with
  | nil => exact ⟨fun _ => ⟨.singleton _, by simp, by simp⟩, fun _ => by simp [tripleRounds, Debouncer.Unbroken]⟩
  | cons first rest ih =>
      rw [List.forall_mem_cons] at known
      obtain ⟨here, tail⟩ := known
      have reset : (tripleRound config (some opening.cycle.now) first.cycle sk).reset = false ↔
          first.cycle.now ≤ opening.cycle.now + twice.nanos := by
        rw [tripleRound, here.own]
        exact resetDue_eq_false doubled
      rw [tripleRounds, Debouncer.Unbroken, List.forall_mem_cons, reset, here.forget_iff keyed,
        here.uniform_iff keyed watching, ← Debouncer.Unbroken, ih tail]
      constructor
      · intro parts
        obtain ⟨⟨prompt, present, steady⟩, later⟩ := parts
        exact ⟨List.isChain_cons_cons.mpr ⟨prompt, later.awake⟩,
          List.forall_mem_cons.mpr ⟨present, later.present⟩,
          List.forall_mem_cons.mpr ⟨steady, later.steady⟩⟩
      · intro undisturbed
        obtain ⟨prompt, awake⟩ := List.isChain_cons_cons.mp undisturbed.awake
        obtain ⟨present, laterPresent⟩ := List.forall_mem_cons.mp undisturbed.present
        obtain ⟨steady, laterSteady⟩ := List.forall_mem_cons.mp undisturbed.steady
        exact ⟨⟨prompt, present, steady⟩, awake, laterPresent, laterSteady⟩

theorem rounds_timed (known : ∀ entry ∈ entries, entry.Known config sk)
    (clock : entries.Pairwise fun first second => first.cycle.now ≤ second.cycle.now) :
    Debouncer.Timed (tripleRounds config sk lastSeen entries) where
  alone := by
    clear clock
    induction entries generalizing lastSeen with
    | nil => simp [tripleRounds]
    | cons first rest ih =>
        rw [List.forall_mem_cons] at known
        exact List.forall_mem_cons.mpr ⟨known.1.alone lastSeen, ih known.2⟩
  ordered := by
    have times : ((tripleRounds config sk lastSeen entries).map Round.now).Pairwise (· ≤ ·) := by
      rw [tripleRounds_now]
      exact List.pairwise_map.mpr clock
    exact List.pairwise_map.mp times

/-- The window of a round, said by the cycles. -/
theorem window_iff {now : Instant} (keyed : sk.WellKeyed) (watching : watched config sk.plugin = true)
    (doubled : ((config.refreshFor sk.plugin.asStr).bind fun refresh => refresh.mul? 2) = some twice)
    (known : ∀ entry ∈ entries, entry.Known config sk)
    (past : ∀ entry ∈ entries, entry.cycle.now ≤ now) :
    (∃ first round second, tripleRounds config sk none entries = first ++ round :: second ∧
      elapsed minDuration round.now now = true ∧ (∃ sample ∈ round.samples, sample.1 = level) ∧
      Debouncer.Unbroken level second) ↔
    ∃ before opening between, entries = before ++ opening :: between ∧
      opening.cycle.now + minDuration.nanos ≤ now ∧ opening.shows sk = some level.asStr ∧
      Undisturbed twice sk level opening between := by
  have due : ∀ opening ∈ entries, elapsed minDuration opening.cycle.now now = true ↔
      opening.cycle.now + minDuration.nanos ≤ now := by
    intro opening member
    rw [elapsed, decide_eq_true_eq]
    exact Nat.le_sub_iff_add_le' (past opening member)
  constructor
  · intro window
    obtain ⟨_, round, _, rounds, ripe, sampled, unbroken⟩ := window
    obtain ⟨before, opening, between, seen, rfl, rfl, rfl⟩ := tripleRounds_split rounds
    have later : ∀ entry ∈ between, entry.Known config sk :=
      fun entry member => known entry (by simp [member])
    refine ⟨before, opening, between, rfl, (due opening (by simp)).mp ripe, ?_, ?_⟩
    · exact ((known opening (by simp)).shows_iff keyed watching seen).mp sampled
    · exact (unbroken_iff keyed watching doubled later).mp unbroken
  · intro window
    obtain ⟨before, opening, between, rfl, ripe, shown, undisturbed⟩ := window
    have later : ∀ entry ∈ between, entry.Known config sk :=
      fun entry member => known entry (by simp [member])
    refine ⟨_, _, _, tripleRounds_append before (opening :: between) none,
      (due opening (by simp)).mpr ripe, ?_, ?_⟩
    · exact ((known opening (by simp)).shows_iff keyed watching _).mpr shown
    · exact (unbroken_iff keyed watching doubled later).mpr undisturbed

omit [NumberText] in
theorem changesOf_eq_eventsOf (entry : Entry) :
    changesOf sk entry.committed = (eventsOf sk [entry]).map Event.change := by
  simp [eventsOf, changesOf]

theorem standingLevel_snoc :
    standingLevel sk (earlier ++ [entry]) =
      if (presented sk.plugin sk.key entry.cycle.payload).isEmpty then .ok
      else ((eventsOf sk [entry]).getLast?.map Event.level).getD (standingLevel sk earlier) := by
  simp [standingLevel]

/-- The committed level is the one a reader of the journal takes it to be. -/
theorem Journal.Tracks.committed_eq (tracks : journal.Tracks config) (keyed : sk.WellKeyed)
    (watching : watched config sk.plugin = true)
    (window : effectiveMinDuration config sk.plugin = some minDuration)
    (own : ∀ entry ∈ earlier, entry.cycle.plugin = sk.plugin)
    (split : journal.cycles sk.plugin = earlier ++ later) :
    (debouncerAfter config minDuration sk earlier).committed = standingLevel sk earlier := by
  induction earlier using List.reverseRecOn generalizing later with
  | nil => rfl
  | append_singleton earlier entry ih =>
      rw [List.append_assoc, List.singleton_append] at split
      obtain ⟨before, latest⟩ := List.forall_mem_append.mp own
      have same := latest entry (by simp)
      have output := tracks.round_at watching window split
      rw [changesOf_eq_eventsOf] at output
      rw [debouncerAfter, tripleRounds_snoc, Debouncer.run_snoc, standingLevel_snoc]
      by_cases absent : presented sk.plugin sk.key entry.cycle.payload = []
      · have forgotten : (tripleRound config (lastNow earlier) entry.cycle sk).forget = true := by
          by_contra remembered
          exact presented_of_remembered keyed same (by simpa using remembered) absent
        have silent : (tripleRound config (lastNow earlier) entry.cycle sk).samples = [] := by
          simp only [tripleRound, same]
          rw [samples_presented keyed, absent]
          rfl
        simp [absent, Debouncer.step, Debouncer.enter, forgotten, silent]
      · have remembered : (tripleRound config (lastNow earlier) entry.cycle sk).forget = false :=
          remembered_of_presented same absent
        have chained := (@Debouncer.step_chained _ _ _ (elapsed minDuration) .ok
          (debouncerAfter config minDuration sk earlier) _ _ remembered).final_eq
        rw [ih before split, debouncerAfter, ← output] at chained
        rw [chained, if_neg (by simpa using absent), List.getLast?_map, Option.map_map]
        rfl

/-- The journal is exactly what the published levels ask for: a cycle journals a
level for a triple if and only if it publishes it, another one stands, and some
cycle that published it, undisturbed since, lies the window back. -/
theorem journal_exact
    (ran : (alertsSystem config hostname).run (alertsSystem config hostname).init cycles =
      some journal)
    (distinct : ∀ cycle ∈ cycles, DistinctKeys cycle.plugin cycle.payload)
    (clock : cycles.Pairwise fun first second => first.now ≤ second.now)
    (keyed : sk.WellKeyed) (watching : watched config sk.plugin = true)
    (window : effectiveMinDuration config sk.plugin = some minDuration)
    (doubled : ((config.refreshFor sk.plugin.asStr).bind fun refresh => refresh.mul? 2) = some twice)
    (split : journal.cycles sk.plugin = earlier ++ entry :: later) :
    (∀ level, (∃ event ∈ eventsOf sk [entry], event.level = level) ↔
      entry.shows sk = some level.asStr ∧ level ≠ standingLevel sk earlier ∧
      ∃ before opening between, earlier ++ [entry] = before ++ opening :: between ∧
        opening.cycle.now + minDuration.nanos ≤ entry.cycle.now ∧
        opening.shows sk = some level.asStr ∧ Undisturbed twice sk level opening between) ∧
    (eventsOf sk [entry]).length ≤ 1 ∧
    ∀ event ∈ eventsOf sk [entry], event.previousLevel = standingLevel sk earlier := by
  have tracks := alertsSystem_tracks ran
  have known : ∀ entry ∈ journal.cycles sk.plugin, entry.Known config sk := by
    intro entry member
    obtain ⟨recorded, own, keys⟩ := cycles_recorded ran distinct entry member
    exact ⟨recorded, own, keys⟩
  have scheduled := alertsSystem_cycles ran
  simp only [alertsSystem, List.map_nil, List.nil_append] at scheduled
  have ordered : (journal.cycles sk.plugin).Pairwise fun first second =>
      first.cycle.now ≤ second.cycle.now := by
    rw [← scheduled, List.pairwise_map] at clock
    exact clock.filter _
  rw [split] at known ordered
  have upTo : earlier ++ entry :: later = (earlier ++ [entry]) ++ later := by simp
  rw [upTo] at known ordered
  obtain ⟨knownHere, _⟩ := List.forall_mem_append.mp known
  have here : entry.Known config sk := knownHere entry (by simp)
  obtain ⟨orderedHere, _, _⟩ := List.pairwise_append.mp ordered
  have timed := @rounds_timed _ config sk none _ knownHere orderedHere
  rw [tripleRounds_snoc] at timed
  have output := tracks.round_at watching window split
  rw [changesOf_eq_eventsOf] at output
  have committed := tracks.committed_eq keyed watching window
    (fun entry member => (knownHere entry (List.mem_append_left _ member)).own) split
  have past : ∀ other ∈ earlier ++ [entry], other.cycle.now ≤ entry.cycle.now := by
    intro other member
    obtain former | rfl : other ∈ earlier ∨ other = entry := by simpa using member
    · exact (List.pairwise_append.mp orderedHere).2.2 other former entry (by simp)
    · exact le_rfl
  have logged : entry ∈ journal.log := (List.mem_filter.mp (show entry ∈ journal.cycles sk.plugin by
    simp [split])).1
  have alone := @Journal.Tracks.eventsOf_single_length _ config sk _ entry tracks logged here.distinct
  refine ⟨fun level => ?_, alone, fun event member => ?_⟩
  · have levels : (∃ event ∈ eventsOf sk [entry], event.level = level) ↔
        ∃ change ∈ (eventsOf sk [entry]).map Event.change, change.1.new = level := by
      simp [Event.change]
    rw [levels, output]
    have older : ∀ first second now, first ≤ second → elapsed minDuration second now = true →
        elapsed minDuration first now = true := fun _ _ _ => elapsed_older
    refine (Debouncer.step_new_iff older timed).trans ?_
    rw [here.shows_iff keyed watching, ← tripleRounds_snoc]
    refine and_congr_right fun shown => and_congr ?_ (window_iff keyed watching doubled knownHere past)
    have remembered : (tripleRound config (lastNow earlier) entry.cycle sk).forget = false := by
      obtain ⟨sample, member, _⟩ := (here.shows_iff keyed watching (lastNow earlier)).mpr shown
      exact here.remembered member
    rw [Debouncer.enter_committed remembered]
    exact committed ▸ Iff.rfl
  · obtain ⟨only, single⟩ := List.length_eq_one_iff.mp
      (Nat.le_antisymm alone (List.length_pos_of_mem member))
    rw [single] at member
    obtain rfl := List.mem_singleton.mp member
    have remembered : (tripleRound config (lastNow earlier) entry.cycle sk).forget = false := by
      have change : event.change ∈ (eventsOf sk [entry]).map Event.change := by simp [single]
      rw [output] at change
      obtain ⟨sample, shown, _⟩ := Debouncer.observeAll_shown change
      exact here.remembered shown
    have chained := (@Debouncer.step_chained _ _ _ (elapsed minDuration) .ok
      (debouncerAfter config minDuration sk earlier) _ _ remembered).head
    rw [debouncerAfter, ← output, ← debouncerAfter, committed, single] at chained
    exact chained event.change rfl

end Runs

abbrev memoryUsage : StateKey := ⟨.mem, none, "percent"⟩

/-- Two-second cycles above the limit: the fourth is the first to lie the window of
five seconds after one that showed it. -/
theorem busyMemory_journal_exact :
    ∃ journal, ∃ first second third entry : Entry,
      (@alertsSystem .integers busyMemory "h").run (@alertsSystem .integers busyMemory "h").init
        [memoryCycle 0, memoryCycle 2, memoryCycle 4, memoryCycle 6] = some journal ∧
      journal.cycles .mem = [first, second, third, entry] ∧
      ∃ event ∈ eventsOf memoryUsage [entry], event.level = .critical := by
  have evaluated : ((@alertsSystem .integers busyMemory "h").run
      (@alertsSystem .integers busyMemory "h").init
      [memoryCycle 0, memoryCycle 2, memoryCycle 4, memoryCycle 6]).map (fun journal =>
        ((journal.cycles .mem).map fun entry => (entry.cycle.now, entry.shows memoryUsage),
          @standingLevel .integers memoryUsage ((journal.cycles .mem).take 3))) =
      some ([(0, some "critical"), (2 * 10 ^ 9, some "critical"), (4 * 10 ^ 9, some "critical"),
        (6 * 10 ^ 9, some "critical")], .ok) := by
    decide +kernel
  obtain ⟨journal, ran, shown⟩ := Option.map_eq_some_iff.mp evaluated
  simp only [Prod.mk.injEq, List.map_eq_cons_iff, List.map_eq_nil_iff] at shown
  obtain ⟨⟨first, _, split, ⟨atFirst, showsFirst⟩, second, _, rfl, ⟨atSecond, showsSecond⟩, third, _, rfl,
    ⟨atThird, showsThird⟩, entry, _, rfl, ⟨atEntry, showsEntry⟩, rfl⟩, standing⟩ := shown
  have standing : @standingLevel .integers memoryUsage [first, second, third] = .ok := by
    rwa [split] at standing
  have undisturbed : @Undisturbed .integers ⟨4 * 10 ^ 9, by decide⟩ memoryUsage .critical first
      [second, third, entry] := by
    refine @Undisturbed.mk .integers _ _ _ _ _ ?_ ?_ ?_
    · simp [atFirst, atSecond, atThird, atEntry]
    · simp [Entry.Present, presented, PluginId.keyField]
    · simp [showsSecond, showsThird, showsEntry, Level.asStr]
  have distinct : ∀ cycle ∈ [memoryCycle 0, memoryCycle 2, memoryCycle 4, memoryCycle 6],
      @DistinctKeys .integers cycle.plugin cycle.payload := by
    simp [DistinctKeys, memoryCycle, PluginId.keyField]
  have journaled := (@journal_exact .integers busyMemory memoryUsage ⟨5 * 10 ^ 9, by decide⟩
    ⟨4 * 10 ^ 9, by decide⟩ "h" journal _ [first, second, third] [] entry ran distinct (by decide) rfl
    (by decide +kernel) (by decide +kernel) (by decide +kernel) split).1 .critical
  refine ⟨journal, first, second, third, entry, ran, split, journaled.mpr ⟨showsEntry, ?_, [], first,
    [second, third, entry], rfl, ?_, showsFirst, undisturbed⟩⟩
  · rw [standing]
    decide
  · rw [atFirst, atEntry]
    decide

end GlancesRs
