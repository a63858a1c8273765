import GlancesRs.Alerts.Levels
import GlancesRs.Config.Validated
import GlancesRs.Plugins.Filter

namespace GlancesRs

open Data

/-! Durations derived from an accepted configuration. Validation bounds every
time setting from below only; `Duration` also has a largest and a smallest
nonzero value. -/

variable {crates : Crates} {config : Config} {environment : String → Option String}
variable {input : String} {id : PluginId}

/-- What the server computes for `id` at run time comes out without a panic,
with a positive refresh period that the idle timeout covers. -/
structure Config.Runs (crates : Crates) (config : Config) (id : PluginId) : Prop where
  builds : ∃ refresh, spawnPlugin crates config id = some refresh
  refresh : ∃ refresh twice idle, config.refreshFor id.asStr = some refresh ∧
    refresh.mul? 2 = some twice ∧ config.idleTimeoutFor id.asStr = some idle ∧
    0 < refresh.nanos ∧ refresh ≤ idle
  guard : ∃ guard, config.guardTimeout = some guard
  minDuration : ∃ window, effectiveMinDuration config id = some window

/-- The settings as exact rationals, in the range the conversions need: the
refresh period rounds to at least one nanosecond, the larger of its two
multiples stays below `2 ^ 64` seconds, and so do the two other durations. -/
structure Config.TimesFit (config : Config) (id : PluginId) : Prop where
  refresh : ∃ secs, (config.refreshSecs id.asStr).toRational? = some secs ∧ 1 / 2 < secs * 10 ^ 9 ∧
    roundHalfEven (secs * 10 ^ 9) * max 2 config.collect.idleCycles.toNat < 2 ^ 64 * 10 ^ 9
  guard : ∃ secs, config.collect.guardTimeout.toRational? = some secs ∧ secs < 2 ^ 64
  minDuration : ∃ secs, (minDurationSecs config id).toRational? = some secs ∧ secs < 2 ^ 64

namespace Config

theorem Validated.refreshSecs (validated : Validated crates config) (name : String) :
    (config.refreshSecs name).isFinite = true ∧ 0 < config.refreshSecs name := by
  rw [Config.refreshSecs]
  cases found : config.plugins.lookup name with
  | none => exact validated.refresh
  | some plugin =>
      cases declared : plugin.refresh with
      | none => simpa [declared] using validated.refresh
      | some secs => simpa [declared] using (validated.plugins name plugin found).refresh secs declared

theorem Validated.minDurationSecs (validated : Validated crates config) (id : PluginId) :
    (minDurationSecs config id).isFinite = true ∧ 0 ≤ minDurationSecs config id := by
  rw [GlancesRs.minDurationSecs]
  cases found : config.plugins.lookup id.asStr with
  | none => exact validated.minDuration
  | some plugin =>
      cases declared : plugin.minDurationSeconds with
      | none => simpa [declared] using validated.minDuration
      | some secs =>
          simpa [declared] using (validated.plugins id.asStr plugin found).minDuration secs declared

/-- On validated patterns nothing but the refresh period decides whether a
plugin can be built. -/
theorem Validated.spawnPlugin (validated : Validated crates config)
    (defaults : DefaultHideCompiles crates) (id : PluginId) :
    spawnPlugin crates config id = config.refreshFor id.asStr := by
  have declared : ∀ plugin, config.plugins.lookup id.asStr = some plugin →
      ∀ pattern ∈ plugin.show ++ plugin.hide, ∃ regex, crates.regexNew pattern = .ok regex := by
    intro plugin found pattern member
    have section_ := validated.plugins id.asStr plugin found
    rcases List.mem_append.mp member with shown | hidden
    · exact section_.show_compiles pattern shown
    · exact section_.hide_compiles pattern hidden
  cases id with
  | cpu => exact ScalarPlugin.new_refresh .cpu
  | diskio => exact CollectionPlugin.new_refresh defaults.diskio declared
  | fs => exact CollectionPlugin.new_refresh defaults.fs declared
  | load => exact ScalarPlugin.new_refresh .load
  | mem => exact ScalarPlugin.new_refresh .mem
  | memSwap => exact ScalarPlugin.new_refresh .memSwap
  | network => exact CollectionPlugin.new_refresh defaults.network declared
  | system => exact ScalarPlugin.new_refresh .system
  | uptime => exact ScalarPlugin.new_refresh .uptime

theorem Validated.refreshFor_nanos (validated : Validated crates config) {name : String} {secs : ℚ}
    (known : (config.refreshSecs name).toRational? = some secs) :
    (∃ refresh, config.refreshFor name = some refresh) ↔ secs < 2 ^ 64 := by
  have positive := (Float.pos_iff known).mp (validated.refreshSecs name).2
  exact Duration.fromSecsF64?_exists_iff known positive.le

theorem Validated.runs_of_timesFit (validated : Validated crates config)
    (defaults : DefaultHideCompiles crates) (fits : config.TimesFit id) : config.Runs crates id := by
  obtain ⟨⟨secs, known, rounds, bounded⟩, ⟨guard, guardKnown, guardBound⟩,
    ⟨window, windowKnown, windowBound⟩⟩ := fits
  have cycles : 0 < config.collect.idleCycles.toNat := by
    have nonzero := validated.idleCycles
    rw [← UInt32.toNat_inj.ne] at nonzero
    exact Nat.pos_of_ne_zero nonzero
  have small : secs < 2 ^ 64 := by
    have rounded : roundHalfEven (secs * 10 ^ 9) < 2 ^ 64 * 10 ^ 9 :=
      (Nat.le_mul_of_pos_right _ (by omega)).trans_lt bounded
    have scaled := lt_of_roundHalfEven_lt rounded
    push_cast at scaled
    linarith
  obtain ⟨refresh, timed⟩ := (validated.refreshFor_nanos known).mpr small
  have nanos := Duration.fromSecsF64?_nanos known timed
  rw [← nanos] at bounded
  obtain ⟨twice, doubled⟩ := Option.isSome_iff_exists.mp <| Duration.mul?_isSome.mpr <|
    (Nat.mul_le_mul_left refresh.nanos (le_max_left 2 _)).trans_lt bounded
  obtain ⟨idle, multiplied⟩ := Option.isSome_iff_exists.mp <| Duration.mul?_isSome.mpr <|
    (Nat.mul_le_mul_left refresh.nanos (le_max_right 2 _)).trans_lt bounded
  refine ⟨⟨refresh, (validated.spawnPlugin defaults id).trans timed⟩,
    ⟨refresh, twice, idle, timed, doubled, by simp [idleTimeoutFor, timed, multiplied], ?_, ?_⟩, ?_, ?_⟩
  · rw [nanos]
    exact roundHalfEven_pos_iff.mpr rounds
  · rw [Duration.le_def, Duration.mul?_eq_some.mp multiplied]
    exact Nat.le_mul_of_pos_right _ cycles
  · have positive := (Float.pos_iff guardKnown).mp validated.guardTimeout.2
    exact (Duration.fromSecsF64?_exists_iff guardKnown positive.le).mpr guardBound
  · have nonneg := (Float.nonneg_iff windowKnown).mp (validated.minDurationSecs id).2
    exact (Duration.fromSecsF64?_exists_iff windowKnown nonneg).mpr windowBound

theorem Validated.timesFit_of_runs (validated : Validated crates config)
    (runs : config.Runs crates id) : config.TimesFit id := by
  obtain ⟨_, ⟨refresh, twice, idle, timed, doubled, multiplied, positive, _⟩, guarded, windowed⟩ := runs
  refine ⟨?_, ?_, ?_⟩
  · obtain ⟨secs, known⟩ := Float.toRational?_of_isFinite (validated.refreshSecs id.asStr).1
    have nanos := Duration.fromSecsF64?_nanos known timed
    have idled : refresh.mul? config.collect.idleCycles.toNat = some idle := by
      simpa [idleTimeoutFor, timed] using multiplied
    refine ⟨secs, known, roundHalfEven_pos_iff.mp (nanos ▸ positive), ?_⟩
    rw [← nanos, mul_max, max_lt_iff, ← Duration.mul?_eq_some.mp doubled,
      ← Duration.mul?_eq_some.mp idled]
    exact ⟨twice.inRange, idle.inRange⟩
  · obtain ⟨secs, known⟩ := Float.toRational?_of_isFinite validated.guardTimeout.1
    have nonneg := (Float.pos_iff known).mp validated.guardTimeout.2
    exact ⟨secs, known, (Duration.fromSecsF64?_exists_iff known nonneg.le).mp guarded⟩
  · obtain ⟨secs, known⟩ := Float.toRational?_of_isFinite (validated.minDurationSecs id).1
    have nonneg := (Float.nonneg_iff known).mp (validated.minDurationSecs id).2
    exact ⟨secs, known, (Duration.fromSecsF64?_exists_iff known nonneg).mp windowed⟩

/-- Acceptance alone does not make a configuration runnable: it runs exactly
when its time settings also fit the range of `Duration`. -/
theorem accepted_runs_iff (defaults : DefaultHideCompiles crates)
    (accepted : fromToml crates environment input = .ok config) (id : PluginId) :
    config.Runs crates id ↔ config.TimesFit id := by
  have validated := fromToml_validated accepted
  exact ⟨validated.timesFit_of_runs, validated.runs_of_timesFit defaults⟩

theorem accepted_runs_default : ({} : Config).Runs (.ofDocument "" {}) .cpu :=
  (accepted_runs_iff ⟨by simp [Crates.ofDocument], by simp [Crates.ofDocument],
      by simp [Crates.ofDocument]⟩
    (@fromToml_ofDocument _ _ (fun _ => none) (by decide +kernel) rfl) .cpu).mpr
    ⟨⟨2, by decide +kernel, by norm_num, by decide +kernel⟩,
      ⟨5, by decide +kernel, by norm_num⟩, ⟨5, by decide +kernel, by norm_num⟩⟩

def hugeRefresh : Config := { collect := { refresh := 1e20 } }

theorem hugeRefresh_accepted_not_runs :
    fromToml (.ofDocument "[collect]\nrefresh = 1e20\n" hugeRefresh) (fun _ => none)
        "[collect]\nrefresh = 1e20\n" = .ok hugeRefresh ∧
      ∀ crates id, ¬ hugeRefresh.Runs crates id := by
  refine ⟨fromToml_ofDocument (by decide +kernel) rfl, fun crates id runs => ?_⟩
  obtain ⟨refresh, _, _, timed, _⟩ := runs.refresh
  have panics : hugeRefresh.refreshFor id.asStr = none := by
    change Duration.fromSecsF64? 1e20 = none
    decide +kernel
  rw [panics] at timed
  cases timed

end Config

end GlancesRs
