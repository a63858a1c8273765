import GlancesRs.Config.Validated

namespace GlancesRs

open Data

/-! The maps of a configuration are walked in an order that differs from run to run. It
decides which of several faults is reported, and nothing else. -/

/-- The same keys, with related values; the order of the entries is free. -/
def HashMap.SameUpTo {ν : Type} (related : ν → ν → Prop) (map other : HashMap String ν) : Prop :=
  ∀ key, Option.Rel related (map.lookup key) (other.lookup key)

structure PluginConfig.Rewalked (plugin other : PluginConfig) : Prop where
  enabled : other.enabled = plugin.enabled
  refresh : other.refresh = plugin.refresh
  «show» : other.show = plugin.show
  hide : other.hide = plugin.hide
  «alias» : HashMap.SameUpTo Eq plugin.alias other.alias
  thresholds : HashMap.SameUpTo Eq plugin.thresholds other.thresholds
  thresholdsByItem :
    HashMap.SameUpTo (HashMap.SameUpTo Eq) plugin.thresholdsByItem other.thresholdsByItem
  minDurationSeconds : other.minDurationSeconds = plugin.minDurationSeconds

/-- The same configuration, its maps walked in other orders. -/
structure Config.Rewalked (config other : Config) : Prop where
  server : other.server = config.server
  security : other.security = config.security
  collect : other.collect = config.collect
  plugins : HashMap.SameUpTo PluginConfig.Rewalked config.plugins other.plugins
  alerts : other.alerts = config.alerts

/-- Only which fault of a document is named may differ. -/
inductive ConfigError.Alike : ConfigError → ConfigError → Prop where
  | same (error : ConfigError) : Alike error error
  | invalid (message other : String) : Alike (.invalid message) (.invalid other)

/-- In another run the maps that `toml::from_str` builds are walked in other orders. -/
def Crates.Rewalks (crates : Crates) (tomlFromStr : String → Except TomlError Config) : Prop :=
  ∀ input, ExceptRel Eq Config.Rewalked (crates.tomlFromStr input) (tomlFromStr input)

section Maps

variable {ν : Type} {related : ν → ν → Prop} {map other : HashMap String ν} {key : String} {value : ν}

theorem HashMap.SameUpTo.found (same : HashMap.SameUpTo related map other)
    (known : other.lookup key = some value) : ∃ former, map.lookup key = some former ∧
      related former value := by
  have here := same key
  rw [known] at here
  cases former : map.lookup key with
  | none => simp [former] at here
  | some first =>
      rw [former, Option.rel_some_some] at here
      exact ⟨first, rfl, here⟩

theorem HashMap.SameUpTo.lookup (same : HashMap.SameUpTo Eq map other) (key : String) :
    other.lookup key = map.lookup key := by
  have here := same key
  generalize map.lookup key = first at here
  generalize other.lookup key = second at here
  cases here with
  | some equal => rw [equal]
  | none => rfl

theorem HashMap.SameUpTo.symm (same : HashMap.SameUpTo related map other)
    (back : ∀ first second, related first second → related second first) :
    HashMap.SameUpTo related other map := by
  intro key
  have here := same key
  generalize map.lookup key = first at here
  generalize other.lookup key = second at here
  cases here with
  | some holds => exact .some (back _ _ holds)
  | none => exact .none

theorem HashMap.SameUpTo.refl (reflects : ∀ value, related value value) (map : HashMap String ν) :
    HashMap.SameUpTo related map map := by
  intro key
  cases map.lookup key with
  | none => exact .none
  | some value => exact .some (reflects value)

end Maps

variable {crates : Crates} {config other : Config} {plugin : PluginConfig}

theorem PluginConfig.Rewalked.symm {second : PluginConfig} (walked : plugin.Rewalked second) :
    second.Rewalked plugin where
  enabled := walked.enabled.symm
  refresh := walked.refresh.symm
  «show» := walked.show.symm
  hide := walked.hide.symm
  «alias» := walked.alias.symm fun _ _ => Eq.symm
  thresholds := walked.thresholds.symm fun _ _ => Eq.symm
  thresholdsByItem := walked.thresholdsByItem.symm fun _ _ same => same.symm fun _ _ => Eq.symm
  minDurationSeconds := walked.minDurationSeconds.symm

theorem PluginConfig.Rewalked.refl (plugin : PluginConfig) : plugin.Rewalked plugin where
  enabled := rfl
  refresh := rfl
  «show» := rfl
  hide := rfl
  «alias» := .refl (fun _ => rfl) _
  thresholds := .refl (fun _ => rfl) _
  thresholdsByItem := .refl (fun map => .refl (fun _ => rfl) map) _
  minDurationSeconds := rfl

theorem Config.Rewalked.symm (walked : config.Rewalked other) : other.Rewalked config where
  server := walked.server.symm
  security := walked.security.symm
  collect := walked.collect.symm
  plugins := walked.plugins.symm fun _ _ same => same.symm
  alerts := walked.alerts.symm

theorem Config.Rewalked.refl (config : Config) : config.Rewalked config where
  server := rfl
  security := rfl
  collect := rfl
  plugins := .refl PluginConfig.Rewalked.refl _
  alerts := rfl

theorem Config.Rewalked.pluginValidated {second : PluginConfig} {name : String}
    (walked : config.Rewalked other) (same : plugin.Rewalked second)
    (validated : Config.PluginValidated crates config name plugin) :
    Config.PluginValidated crates other name second where
  known := validated.known
  refresh := same.refresh ▸ validated.refresh
  show_compiles := same.show ▸ validated.show_compiles
  hide_compiles := same.hide ▸ validated.hide_compiles
  thresholds field t found := validated.thresholds field t ((same.thresholds.lookup field) ▸ found)
  merged item overrides field specific declared found := by
    obtain ⟨former, known, fields⟩ := same.thresholdsByItem.found declared
    have global : other.declaredGlobal name second field = config.declaredGlobal name plugin field := by
      rw [Config.declaredGlobal, Config.declaredGlobal, same.thresholds.lookup, walked.alerts]
    rw [global]
    exact validated.merged item former field specific known ((fields.lookup field) ▸ found)
  minDuration := same.minDurationSeconds ▸ validated.minDuration

theorem Config.Rewalked.validated (walked : config.Rewalked other)
    (validated : config.Validated crates) : other.Validated crates where
  refresh := walked.collect ▸ validated.refresh
  guardTimeout := walked.collect ▸ validated.guardTimeout
  idleCycles := walked.collect ▸ validated.idleCycles
  plugins name second found := by
    obtain ⟨plugin, known, same⟩ := walked.plugins.found found
    exact walked.pluginValidated same (validated.plugins name plugin known)
  historySize := walked.alerts ▸ validated.historySize
  minDuration := walked.alerts ▸ validated.minDuration

section Refusals

variable {α : Type} {first : Except ConfigError Unit} {next : Unit → Except ConfigError Unit}

/-- A check that has nothing to say but that a setting is invalid. -/
def Refusal (check : Except ConfigError Unit) : Prop :=
  ∀ error, check = .error error → ∃ message, error = .invalid message

theorem refusal_ensure {ok : Bool} {message : String} : Refusal (ensure ok message) := by
  intro error failed
  cases ok <;> cases failed
  exact ⟨_, rfl⟩

theorem refusal_ensureSome {setting : Option Float} {ok : Float → Bool} {message : Float → String} :
    Refusal (ensureSome setting ok message) := by
  cases setting with
  | none => intro error failed; cases failed
  | some secs => exact refusal_ensure

theorem Refusal.bind (started : Refusal first) (continued : Refusal (next ())) :
    Refusal (first >>= next) := by
  intro error failed
  rcases except_bind_eq_error.mp failed with early | ⟨_, _, late⟩
  · exact started error early
  · exact continued error late

theorem refusal_forM {values : List α} {check : α → Except ConfigError Unit}
    (refusals : ∀ value, Refusal (check value)) : Refusal (values.forM check) := by
  induction values with
  | nil => intro error failed; cases failed
  | cons value rest ih =>
      rw [List.forM_eq_forM, List.forM_cons, ← List.forM_eq_forM]
      exact (refusals value).bind ih

theorem refusal_checkThresholdOrder {name field : String} {t : Thresholds} :
    Refusal (checkThresholdOrder name field t) :=
  refusal_ensure.bind refusal_ensure

theorem refusal_checkRegexes {name list : String} {patterns : List String} :
    Refusal (Config.checkRegexes crates name list patterns) := by
  refine refusal_forM fun pattern error failed => ?_
  split at failed <;> cases failed
  exact ⟨_, rfl⟩

theorem refusal_validatePlugin {name : String} :
    Refusal (config.validatePlugin crates name plugin) := by
  refine refusal_ensure.bind (refusal_ensureSome.bind (refusal_checkRegexes.bind
    (refusal_checkRegexes.bind (.bind (refusal_forM fun _ => refusal_checkThresholdOrder)
      (.bind (refusal_forM fun _ => refusal_forM fun _ => ?_) refusal_ensureSome)))))
  exact refusal_checkThresholdOrder.bind refusal_checkThresholdOrder

theorem refusal_validate : Refusal (config.validate crates) :=
  refusal_ensure.bind (refusal_ensure.bind (refusal_ensure.bind
    (.bind (refusal_forM fun _ => refusal_validatePlugin) (refusal_ensure.bind refusal_ensure))))

end Refusals

variable {tomlFromStr : String → Except TomlError Config}

/-- The parser of the document has no part in the validation. -/
theorem Config.Validated.reparsed (validated : config.Validated crates) :
    config.Validated { crates with tomlFromStr } where
  refresh := validated.refresh
  guardTimeout := validated.guardTimeout
  idleCycles := validated.idleCycles
  plugins name plugin found := { validated.plugins name plugin found with }
  historySize := validated.historySize
  minDuration := validated.minDuration

/-- Whether a configuration is valid does not depend on the order it is walked in. -/
theorem Config.Rewalked.validate (walked : config.Rewalked other) :
    ExceptRel ConfigError.Alike Eq (config.validate crates)
      (other.validate { crates with tomlFromStr }) := by
  cases checked : config.validate crates with
  | ok =>
      have validated := walked.validated (Config.validate_ok checked)
      rw [validated.reparsed.accepted]
      exact .ok rfl
  | error reason =>
      obtain ⟨message, rfl⟩ := refusal_validate reason checked
      cases again : other.validate { crates with tomlFromStr } with
      | ok =>
          have validated := walked.symm.validated (Config.validate_ok again)
          have same : config.Validated crates := validated.reparsed
          cases checked.symm.trans same.accepted
      | error second =>
          obtain ⟨message', rfl⟩ := refusal_validate second again
          exact .error (.invalid message message')

/-- A document is accepted as the same configuration in every run, or in none. -/
theorem Config.fromToml_rewalked {environment : String → Option String} {input : String}
    (rewalks : crates.Rewalks tomlFromStr) :
    ExceptRel ConfigError.Alike Config.Rewalked (Config.fromToml crates environment input)
      (Config.fromToml { crates with tomlFromStr } environment input) := by
  have parsed : ExceptRel ConfigError.Alike Config.Rewalked
      ((crates.tomlFromStr input).mapError .parse) ((tomlFromStr input).mapError .parse) := by
    refine (rewalks input).mapError fun left right same => ?_
    subst same
    exact .same _
  refine parsed.bind fun config other walked => walked.validate.bind fun _ _ _ => ?_
  have resolved : ExceptRel ConfigError.Alike Eq (config.server.resolvePassword environment)
      (config.server.resolvePassword environment) := .refl .same (fun _ => rfl) _
  rw [walked.server]
  refine resolved.bind fun server again same => ?_
  subst same
  exact .ok { walked with server := rfl }

end GlancesRs
