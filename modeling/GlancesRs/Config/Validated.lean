import GlancesRs.Config.Model
import GlancesRs.Data.Except

namespace GlancesRs

open Data

/-! What an accepted configuration is known to satisfy: one specification per
checking function, read by every later argument instead of the checks. -/

theorem ensure_ok {ok : Bool} {message : String} : ensure ok message = .ok () ↔ ok = true := by
  cases ok <;> simp [ensure]

theorem ensureSome_ok {setting : Option Float} {ok : Float → Bool} {message : Float → String} :
    ensureSome setting ok message = .ok () ↔ ∀ secs ∈ setting, ok secs = true := by
  cases setting <;> simp [ensureSome, ensure_ok]

theorem HashMap.lookup_eq_some {ν : Type} {map : HashMap String ν} {key : String} {value : ν} :
    map.lookup key = some value ↔ ⟨key, value⟩ ∈ map.entries :=
  AList.mem_lookup_iff

structure OrderedLimits (careful warning critical : Option Float) : Prop where
  careful_finite : ∀ limit ∈ careful, limit.isFinite = true
  warning_finite : ∀ limit ∈ warning, limit.isFinite = true
  critical_finite : ∀ limit ∈ critical, limit.isFinite = true
  careful_le_warning : ∀ low ∈ careful, ∀ high ∈ warning, low ≤ high
  warning_le_critical : ∀ low ∈ warning, ∀ high ∈ critical, low ≤ high
  careful_le_critical : ∀ low ∈ careful, ∀ high ∈ critical, low ≤ high

abbrev Thresholds.WellOrdered (t : Thresholds) : Prop :=
  OrderedLimits t.careful t.warning t.critical

theorem Thresholds.finite_iff {limit : Option Float} :
    Thresholds.finite limit = true ↔ ∀ value ∈ limit, value.isFinite = true := by
  cases limit <;> simp [Thresholds.finite]

theorem Thresholds.ordered_iff {left right : Option Float} :
    Thresholds.ordered left right = true ↔ ∀ low ∈ left, ∀ high ∈ right, low ≤ high := by
  cases left <;> cases right <;> simp [Thresholds.ordered]

theorem checkThresholdOrder_ok {plugin field : String} {t : Thresholds} :
    checkThresholdOrder plugin field t = .ok () ↔ t.WellOrdered := by
  simp only [checkThresholdOrder, except_bind_unit_eq_ok, ensure_ok, Bool.and_eq_true,
    Thresholds.finite_iff, Thresholds.ordered_iff]
  constructor
  · intro checked
    obtain ⟨⟨⟨careful, warning⟩, critical⟩, ⟨low, high⟩, outer⟩ := checked
    exact ⟨careful, warning, critical, low, high, outer⟩
  · intro limits
    obtain ⟨careful, warning, critical, low, high, outer⟩ := limits
    exact ⟨⟨⟨careful, warning⟩, critical⟩, ⟨low, high⟩, outer⟩

namespace Config

variable {crates : Crates} {config parsed : Config} {plugin : PluginConfig}
variable {environment : String → Option String} {input name : String}

structure PluginValidated (crates : Crates) (config : Config) (name : String)
    (plugin : PluginConfig) : Prop where
  known : name ∈ knownPlugins
  refresh : ∀ secs ∈ plugin.refresh, secs.isFinite = true ∧ 0 < secs
  show_compiles : ∀ pattern ∈ plugin.show, ∃ regex, crates.regexNew pattern = .ok regex
  hide_compiles : ∀ pattern ∈ plugin.hide, ∃ regex, crates.regexNew pattern = .ok regex
  thresholds : ∀ field t, plugin.thresholds.lookup field = some t → t.WellOrdered
  merged : ∀ item overrides field specific,
    plugin.thresholdsByItem.lookup item = some overrides →
    overrides.lookup field = some specific →
    (mergedThresholds specific (config.declaredGlobal name plugin field)).WellOrdered
  minDuration : ∀ secs ∈ plugin.minDurationSeconds, secs.isFinite = true ∧ 0 ≤ secs

structure Validated (crates : Crates) (config : Config) : Prop where
  refresh : config.collect.refresh.isFinite = true ∧ 0 < config.collect.refresh
  guardTimeout : config.collect.guardTimeout.isFinite = true ∧ 0 < config.collect.guardTimeout
  idleCycles : config.collect.idleCycles ≠ 0
  plugins : ∀ name plugin, config.plugins.lookup name = some plugin →
    PluginValidated crates config name plugin
  historySize : config.alerts.historySize ≠ 0
  minDuration :
    config.alerts.minDurationSeconds.isFinite = true ∧ 0 ≤ config.alerts.minDurationSeconds

theorem checkRegexes_ok {list : String} {patterns : List String}
    (checked : checkRegexes crates name list patterns = .ok ()) :
    ∀ pattern ∈ patterns, ∃ regex, crates.regexNew pattern = .ok regex := by
  intro pattern member
  have passed := except_forM_eq_ok.mp checked pattern member
  cases compiled : crates.regexNew pattern with
  | error reason => simp [compiled] at passed
  | ok regex => exact ⟨regex, rfl⟩

theorem validateItem_ok {item : String} {overrides : HashMap String Thresholds}
    (checked : config.validateItem name plugin item overrides = .ok ()) {field : String}
    {specific : Thresholds} (found : overrides.lookup field = some specific) :
    (mergedThresholds specific (config.declaredGlobal name plugin field)).WellOrdered := by
  have passed := except_forM_eq_ok.mp checked _ (HashMap.lookup_eq_some.mp found)
  exact checkThresholdOrder_ok.mp (except_bind_unit_eq_ok.mp passed).2

theorem validatePlugin_ok (checked : config.validatePlugin crates name plugin = .ok ()) :
    PluginValidated crates config name plugin := by
  simp only [validatePlugin, except_bind_unit_eq_ok, ensure_ok, ensureSome_ok, Bool.and_eq_true,
    decide_eq_true_eq] at checked
  obtain ⟨known, refresh, shows, hides, blocks, items, duration⟩ := checked
  refine ⟨by simpa using known, refresh, checkRegexes_ok shows, checkRegexes_ok hides, ?_, ?_,
    duration⟩
  · intro field t found
    exact checkThresholdOrder_ok.mp
      (except_forM_eq_ok.mp blocks _ (HashMap.lookup_eq_some.mp found))
  · intro item overrides field specific declared found
    exact validateItem_ok (except_forM_eq_ok.mp items _ (HashMap.lookup_eq_some.mp declared)) found

theorem validate_ok (checked : config.validate crates = .ok ()) : Validated crates config := by
  simp only [validate, except_bind_unit_eq_ok, ensure_ok, Bool.and_eq_true, decide_eq_true_eq,
    bne_iff_ne] at checked
  obtain ⟨refresh, guard, cycles, plugins, history, duration⟩ := checked
  refine ⟨refresh, guard, cycles, ?_, history, duration⟩
  intro name plugin found
  exact validatePlugin_ok (except_forM_eq_ok.mp plugins _ (HashMap.lookup_eq_some.mp found))

/-- The limits of an item are among the merged ones. -/
theorem specific_wellOrdered {specific : Thresholds} {global : Option Thresholds}
    (merged : (mergedThresholds specific global).WellOrdered) : specific.WellOrdered := by
  have kept : ∀ {limit : Float} {own declared : Option Float}, limit ∈ own →
      limit ∈ own.or declared := by
    intro limit own declared set
    exact Option.or_eq_some_iff.mpr (.inl set)
  exact
    { careful_finite := fun limit set => merged.careful_finite limit (kept set)
      warning_finite := fun limit set => merged.warning_finite limit (kept set)
      critical_finite := fun limit set => merged.critical_finite limit (kept set)
      careful_le_warning := fun low careful high warning =>
        merged.careful_le_warning low (kept careful) high (kept warning)
      warning_le_critical := fun low warning high critical =>
        merged.warning_le_critical low (kept warning) high (kept critical)
      careful_le_critical := fun low careful high critical =>
        merged.careful_le_critical low (kept careful) high (kept critical) }

theorem checkRegexes_of_compiles {list : String} {patterns : List String}
    (compiles : ∀ pattern ∈ patterns, ∃ regex, crates.regexNew pattern = .ok regex) :
    checkRegexes crates name list patterns = .ok () := by
  refine except_forM_eq_ok.mpr fun pattern member => ?_
  obtain ⟨regex, compiled⟩ := compiles pattern member
  simp [compiled]

theorem PluginValidated.accepted (validated : PluginValidated crates config name plugin) :
    config.validatePlugin crates name plugin = .ok () := by
  simp only [validatePlugin, except_bind_unit_eq_ok, ensure_ok, ensureSome_ok, Bool.and_eq_true,
    decide_eq_true_eq]
  refine ⟨by simpa using validated.known, validated.refresh,
    checkRegexes_of_compiles validated.show_compiles, checkRegexes_of_compiles validated.hide_compiles,
    ?_, ?_, validated.minDuration⟩
  · refine except_forM_eq_ok.mpr fun ⟨field, t⟩ member => checkThresholdOrder_ok.mpr ?_
    exact validated.thresholds field t (HashMap.lookup_eq_some.mpr member)
  · refine except_forM_eq_ok.mpr fun ⟨item, overrides⟩ member =>
      except_forM_eq_ok.mpr fun ⟨field, specific⟩ inside => except_bind_unit_eq_ok.mpr ?_
    have merged := validated.merged item overrides field specific
      (HashMap.lookup_eq_some.mpr member) (HashMap.lookup_eq_some.mpr inside)
    exact ⟨checkThresholdOrder_ok.mpr (specific_wellOrdered merged), checkThresholdOrder_ok.mpr merged⟩

/-- What is validated passes every check. -/
theorem Validated.accepted (validated : Validated crates config) : config.validate crates = .ok () := by
  simp only [validate, except_bind_unit_eq_ok, ensure_ok, Bool.and_eq_true, decide_eq_true_eq,
    bne_iff_ne]
  refine ⟨validated.refresh, validated.guardTimeout, validated.idleCycles, ?_, validated.historySize,
    validated.minDuration⟩
  exact except_forM_eq_ok.mpr fun ⟨name, plugin⟩ member =>
    (validated.plugins name plugin (HashMap.lookup_eq_some.mpr member)).accepted

/-- Every default passes its own check, whatever the crates. -/
theorem validate_default (crates : Crates) : ({} : Config).validate crates = .ok () := by
  have period : ((2.0 : Float).isFinite && decide (0 < (2.0 : Float))) = true := by decide +kernel
  have guard : ((5.0 : Float).isFinite && decide (0 < (5.0 : Float))) = true := by decide +kernel
  have window : ((5.0 : Float).isFinite && decide (0 ≤ (5.0 : Float))) = true := by decide +kernel
  simp only [validate, period, guard, window]
  rfl

/-- Loading is parsing, then validation, then resolution of the password; the
last step touches the server section only. -/
theorem fromToml_ok {accepted : Config} :
    fromToml crates environment input = .ok accepted ↔
      ∃ parsed server, crates.tomlFromStr input = .ok parsed ∧ parsed.validate crates = .ok () ∧
        parsed.server.resolvePassword environment = .ok server ∧
        accepted = { parsed with server } := by
  cases parsing : crates.tomlFromStr input with
  | error reason => simp [fromToml, parsing, Except.mapError, except_bind_eq_ok]
  | ok parsed =>
      simp only [fromToml, parsing, Except.mapError, except_bind_eq_ok, Except.ok.injEq,
        exists_eq_left', pure, Except.pure]
      constructor
      · intro loaded
        obtain ⟨_, validated, server, resolved, rfl⟩ := loaded
        exact ⟨parsed, server, rfl, validated, resolved, rfl⟩
      · intro parts
        obtain ⟨_, server, rfl, validated, resolved, rfl⟩ := parts
        exact ⟨(), validated, server, resolved, rfl⟩

theorem fromToml_validated {accepted : Config}
    (loaded : fromToml crates environment input = .ok accepted) : Validated crates accepted := by
  obtain ⟨parsed, server, _, validated, _, rfl⟩ := fromToml_ok.mp loaded
  obtain ⟨refresh, guard, cycles, plugins, history, duration⟩ := validate_ok validated
  refine ⟨refresh, guard, cycles, ?_, history, duration⟩
  intro name plugin found
  obtain ⟨known, secs, shows, hides, blocks, merged, window⟩ := plugins name plugin found
  exact ⟨known, secs, shows, hides, blocks, merged, window⟩

end Config

/-- Crates that read one document and compile every pattern to itself. -/
def Crates.ofDocument (document : String) (config : Config) : Crates where
  tomlFromStr input := if input = document then .ok config else .error ⟨"unexpected document"⟩
  Regex := String
  regexNew := .ok
  displayF64 _ := "out of range"
  debugStr text := text

theorem Config.fromToml_ofDocument {document : String} {config : Config}
    {environment : String → Option String}
    (valid : (config.validate (.ofDocument document config)).isOk = true)
    (resolved : config.server.passwordEnv = none) :
    fromToml (.ofDocument document config) environment document = .ok config := by
  refine fromToml_ok.mpr ⟨config, config.server, by simp [Crates.ofDocument], ?_, ?_, rfl⟩
  · cases checked : config.validate (.ofDocument document config) with
    | error reason => simp [checked, Except.isOk, Except.toBool] at valid
    | ok => rfl
  · cases secret : config.server.password <;>
      simp [ServerConfig.resolvePassword, secret, resolved]

end GlancesRs
