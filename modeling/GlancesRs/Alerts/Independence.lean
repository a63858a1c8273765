import GlancesRs.Alerts.Journal
import GlancesRs.Alerts.Scan

namespace GlancesRs

open Data

/-! Two runs that show a triple the same cycles commit the same transitions for
it: its rounds are the same, whatever else the shared state went through. -/

section Runs

variable [NumberText] {config : Config} {sk : StateKey} {journal journal₁ journal₂ : Journal}
variable {hostname hostname₁ hostname₂ : String} {cycles cycles₁ cycles₂ : List Cycle}

/-- The cycles agree on their time and on what the triple's key presents. -/
def SameView (sk : StateKey) (first second : Cycle) : Prop :=
  first.now = second.now ∧
    presented sk.plugin sk.key first.payload = presented sk.plugin sk.key second.payload

/-- The transitions committed for a triple, cycle by cycle of its plugin. -/
def Journal.commits (journal : Journal) (sk : StateKey) : List (List (Change Level × Float)) :=
  (journal.cycles sk.plugin).map fun entry => changesOf sk entry.committed

theorem tripleRounds_eq {entries₁ entries₂ : List Entry} {lastSeen : Option Instant}
    (own₁ : ∀ entry ∈ entries₁, entry.cycle.plugin = sk.plugin)
    (own₂ : ∀ entry ∈ entries₂, entry.cycle.plugin = sk.plugin)
    (agree : List.Forall₂ (fun first second => SameView sk first.cycle second.cycle)
      entries₁ entries₂) :
    tripleRounds config sk lastSeen entries₁ = tripleRounds config sk lastSeen entries₂ := by
  induction agree generalizing lastSeen with
  | nil => rfl
  | cons view _ ih =>
      obtain ⟨together, same⟩ := view
      simp only [List.forall_mem_cons] at own₁ own₂
      simp only [tripleRounds]
      rw [tripleRound_eq own₁.1 own₂.1 together same, together, ih own₁.2 own₂.2]

theorem cycles_of_run
    (ran : (alertsSystem config hostname).run (alertsSystem config hostname).init cycles =
      some journal)
    (id : PluginId) :
    (journal.cycles id).map Entry.cycle = cycles.filter fun cycle => cycle.plugin = id := by
  have logged := alertsSystem_cycles ran
  simp only [alertsSystem, List.map_nil, List.nil_append] at logged
  rw [← logged, Journal.cycles, List.filter_map]
  rfl

theorem Journal.Tracks.commits_unwatched (tracks : journal.Tracks config)
    (ignored : watched config sk.plugin = false) :
    journal.commits sk = (journal.cycles sk.plugin).map fun _ => [] := by
  refine List.map_congr_left fun entry member => ?_
  obtain ⟨logged, own⟩ := List.mem_filter.mp member
  have silent := (tracks.recorded entry logged).silent (by simpa [of_decide_eq_true own] using ignored)
  simp [silent, changesOf]

theorem Journal.Tracks.cycles_windowless (tracks : journal.Tracks config) {id : PluginId}
    (watching : watched config id = true) (panics : effectiveMinDuration config id = none) :
    journal.cycles id = [] := by
  refine List.eq_nil_iff_forall_not_mem.mpr fun entry member => ?_
  obtain ⟨logged, own⟩ := List.mem_filter.mp member
  obtain rfl : entry.cycle.plugin = id := of_decide_eq_true own
  obtain ⟨minDuration, window⟩ := (tracks.recorded entry logged).window watching
  rw [panics] at window
  cases window

/-- The transitions of a triple are a function of the times of its plugin's
cycles and of what they present under its key. -/
theorem triples_independent
    (ran₁ : (alertsSystem config hostname₁).run (alertsSystem config hostname₁).init cycles₁ =
      some journal₁)
    (ran₂ : (alertsSystem config hostname₂).run (alertsSystem config hostname₂).init cycles₂ =
      some journal₂)
    (agree : List.Forall₂ (SameView sk) (cycles₁.filter fun cycle => cycle.plugin = sk.plugin)
      (cycles₂.filter fun cycle => cycle.plugin = sk.plugin)) :
    journal₁.commits sk = journal₂.commits sk := by
  have tracks₁ := alertsSystem_tracks ran₁
  have tracks₂ := alertsSystem_tracks ran₂
  rw [← cycles_of_run ran₁, ← cycles_of_run ran₂, List.forall₂_map_left_iff,
    List.forall₂_map_right_iff] at agree
  have own : ∀ journal : Journal, ∀ entry ∈ journal.cycles sk.plugin, entry.cycle.plugin = sk.plugin :=
    fun journal entry member => of_decide_eq_true (List.mem_filter.mp member).2
  cases watching : watched config sk.plugin with
  | false =>
      rw [tracks₁.commits_unwatched watching, tracks₂.commits_unwatched watching,
        List.map_const', List.map_const', agree.length_eq]
  | true =>
      have rounds : tripleRounds config sk none (journal₁.cycles sk.plugin) =
          tripleRounds config sk none (journal₂.cycles sk.plugin) :=
        tripleRounds_eq (own journal₁) (own journal₂) agree
      cases window : effectiveMinDuration config sk.plugin with
      | some minDuration =>
          have first := tracks₁.triples sk minDuration watching window
          have second := tracks₂.triples sk minDuration watching window
          rw [rounds, second, Prod.mk.injEq] at first
          exact first.2.symm
      | none =>
          simp only [Journal.commits, tracks₁.cycles_windowless watching window,
            tracks₂.cycles_windowless watching window]

end Runs

def fullDisk : Config where
  alerts := { minDurationSeconds := 0 }
  plugins := AList.singleton "fs" {
    thresholds := AList.singleton "percent" { critical := some 90 } }

def mount (point : String) (percent : Float) : Json :=
  .object [("mnt_point", .string point), ("percent", .number (.float percent))]

def mounts (now : Instant) (data : List Json) : Cycle where
  plugin := .fs
  now := now
  nowSys := 0
  payload := .object [("data", .array data)]

def memory (now : Instant) : Cycle where
  plugin := .mem
  now := now
  nowSys := 0
  payload := .object [("percent", .number (.float 95))]

/-- The same full root disk, alone and beside another disk and another plugin. -/
theorem fullDisk_triples_independent : ∃ alone beside,
    (@alertsSystem .integers fullDisk "a").run (@alertsSystem .integers fullDisk "a").init
      [mounts 7 [mount "/" 95]] = some alone ∧
    (@alertsSystem .integers fullDisk "b").run (@alertsSystem .integers fullDisk "b").init
      [memory 3, mounts 7 [mount "/home" 99, mount "/" 95]] = some beside ∧
    alone.commits ⟨.fs, some "/", "percent"⟩ = beside.commits ⟨.fs, some "/", "percent"⟩ ∧
    (beside.commits ⟨.fs, some "/", "percent"⟩).length = 1 := by
  obtain ⟨alone, ran₁⟩ := Option.isSome_iff_exists.mp (show
    ((@alertsSystem .integers fullDisk "a").run (@alertsSystem .integers fullDisk "a").init
      [mounts 7 [mount "/" 95]]).isSome = true by decide +kernel)
  have evaluated : ((@alertsSystem .integers fullDisk "b").run
      (@alertsSystem .integers fullDisk "b").init
      [memory 3, mounts 7 [mount "/home" 99, mount "/" 95]]).map
        (fun journal => (journal.commits ⟨.fs, some "/", "percent"⟩).length) = some 1 := by
    decide +kernel
  obtain ⟨beside, ran₂, committed⟩ := Option.map_eq_some_iff.mp evaluated
  refine ⟨alone, beside, ran₁, ran₂, ?_, committed⟩
  refine @triples_independent .integers _ _ _ _ _ _ _ _ ran₁ ran₂ ?_
  exact .cons ⟨rfl, rfl⟩ .nil

end GlancesRs
