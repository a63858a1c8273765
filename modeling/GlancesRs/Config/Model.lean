import GlancesRs.Data.Duration
import GlancesRs.Plugins.Fields
import Mathlib.Data.List.AList

namespace GlancesRs

open Data

/-- A `std::collections::HashMap`: distinct keys, in an iteration order that differs
from run to run. -/
abbrev HashMap (κ ν : Type) := AList fun _ : κ => ν

inductive IpAddr where
  | v4 (a b c d : UInt8)
  | v6 (bits : BitVec 128)
deriving DecidableEq

/-- `127.0.0.0/8` and `::1`. -/
def IpAddr.isLoopback : IpAddr → Bool
  | .v4 a _ _ _ => a == 127
  | .v6 bits => bits == 1

structure ServerConfig where
  bind : IpAddr := .v4 127 0 0 1
  password : Option String := none
  passwordEnv : Option String := none
deriving DecidableEq

structure SecurityConfig where
  trustedHosts : List String := ["localhost", "127.0.0.1"]
deriving DecidableEq

structure CollectConfig where
  refresh : Float := 2.0
  idleCycles : UInt32 := 5
  guardTimeout : Float := 5.0
deriving DecidableEq

structure AlertsConfig where
  historySize : ℕ := 200
  minDurationSeconds : Float := 5.0
  useBuiltinDefaults : Bool := false
deriving DecidableEq

structure Thresholds where
  careful : Option Float := none
  warning : Option Float := none
  critical : Option Float := none
deriving DecidableEq

structure PluginConfig where
  enabled : Option Bool := none
  refresh : Option Float := none
  «show» : List String := []
  hide : List String := []
  «alias» : HashMap String String := ∅
  thresholds : HashMap String Thresholds := ∅
  thresholdsByItem : HashMap String (HashMap String Thresholds) := ∅
  minDurationSeconds : Option Float := none

structure Config where
  server : ServerConfig := {}
  security : SecurityConfig := {}
  collect : CollectConfig := {}
  plugins : HashMap String PluginConfig := ∅
  alerts : AlertsConfig := {}

structure TomlError where
  message : String

structure RegexError where
  message : String

/-- The functions outside this source tree that loading a configuration calls:
`toml::from_str` (with the iteration order of the maps it builds in this run),
`regex_lite::Regex::new`, and `std`'s rendering of an `f64` and of a quoted string in
error texts. -/
structure Crates where
  tomlFromStr : String → Except TomlError Config
  Regex : Type
  regexNew : String → Except RegexError Regex
  displayF64 : Float → String
  debugStr : String → String

inductive ConfigError where
  | parse (error : TomlError)
  | invalid (message : String)

/-- `if !ok { return Err(ConfigError::Invalid(message)) }`. -/
def ensure (ok : Bool) (message : String) : Except ConfigError Unit :=
  if ok then .ok () else .error (.invalid message)

def ensureSome (setting : Option Float) (ok : Float → Bool) (message : Float → String) :
    Except ConfigError Unit :=
  match setting with
  | some secs => ensure (ok secs) (message secs)
  | none => .ok ()

def knownPlugins : List String :=
  ["cpu", "diskio", "fs", "load", "mem", "memswap", "network", "system", "uptime"]

namespace Thresholds

def finite (limit : Option Float) : Bool := limit.all Float.isFinite

def ordered : Option Float → Option Float → Bool
  | some low, some high => low ≤ high
  | _, _ => true

end Thresholds

def checkThresholdOrder (plugin field : String) (t : Thresholds) : Except ConfigError Unit := do
  ensure (Thresholds.finite t.careful && Thresholds.finite t.warning &&
      Thresholds.finite t.critical)
    s!"plugins.{plugin}.thresholds.{field}: limits must be finite numbers"
  ensure (Thresholds.ordered t.careful t.warning && Thresholds.ordered t.warning t.critical &&
      Thresholds.ordered t.careful t.critical)
    s!"plugins.{plugin}.thresholds.{field}: limits must satisfy careful <= warning <= critical"

/-- Built-in limits of a field; consulted only under `use_builtin_defaults`. -/
def builtinThresholds (id : PluginId) (field : String) : Option Thresholds := do
  let info ← (fields id).find? (·.field == field)
  let (careful, warning, critical) ← info.defaults
  return { careful := some careful, warning := some warning, critical := some critical }

namespace Config

def checkRegexes (crates : Crates) (name list : String) (patterns : List String) :
    Except ConfigError Unit :=
  patterns.forM fun pattern =>
    match crates.regexNew pattern with
    | .error error =>
        .error (.invalid
          s!"plugins.{name}.{list}: invalid regex {crates.debugStr pattern}: {error.message}")
    | .ok _ => .ok ()

def declaredGlobal (config : Config) (name : String) (plugin : PluginConfig) (field : String) :
    Option Thresholds :=
  (plugin.thresholds.lookup field).or
    (if config.alerts.useBuiltinDefaults then
      (PluginId.parse name).bind fun id => builtinThresholds id field
    else none)

def mergedThresholds (specific : Thresholds) (global : Option Thresholds) : Thresholds where
  careful := specific.careful.or (global.bind Thresholds.careful)
  warning := specific.warning.or (global.bind Thresholds.warning)
  critical := specific.critical.or (global.bind Thresholds.critical)

def validateItem (config : Config) (name : String) (plugin : PluginConfig) (item : String)
    (overrides : HashMap String Thresholds) : Except ConfigError Unit :=
  overrides.entries.forM fun ⟨field, specific⟩ => do
    checkThresholdOrder name s!"{item}/{field}" specific
    checkThresholdOrder name s!"{item}/{field} (merged)"
      (mergedThresholds specific (config.declaredGlobal name plugin field))

def validatePlugin (crates : Crates) (config : Config) (name : String) (plugin : PluginConfig) :
    Except ConfigError Unit := do
  let known := ", ".intercalate knownPlugins
  ensure (knownPlugins.contains name)
    s!"unknown plugin section [plugins.{name}] (known plugins: {known})"
  ensureSome plugin.refresh (fun refresh => refresh.isFinite && 0 < refresh) fun refresh =>
    s!"plugins.{name}.refresh must be a positive number of seconds, got {crates.displayF64 refresh}"
  checkRegexes crates name "show" plugin.show
  checkRegexes crates name "hide" plugin.hide
  plugin.thresholds.entries.forM fun ⟨field, t⟩ => checkThresholdOrder name field t
  plugin.thresholdsByItem.entries.forM fun ⟨item, overrides⟩ =>
    config.validateItem name plugin item overrides
  ensureSome plugin.minDurationSeconds (fun md => md.isFinite && 0 ≤ md) fun md =>
    s!"plugins.{name}.min_duration_seconds must be >= 0, got {crates.displayF64 md}"

def validate (crates : Crates) (config : Config) : Except ConfigError Unit := do
  let refresh := crates.displayF64 config.collect.refresh
  ensure (config.collect.refresh.isFinite && 0 < config.collect.refresh)
    s!"collect.refresh must be a positive number of seconds, got {refresh}"
  let guard := crates.displayF64 config.collect.guardTimeout
  ensure (config.collect.guardTimeout.isFinite && 0 < config.collect.guardTimeout)
    s!"collect.guard_timeout must be a positive number of seconds, got {guard}"
  ensure (config.collect.idleCycles != 0) "collect.idle_cycles must be at least 1"
  config.plugins.entries.forM fun ⟨name, plugin⟩ => config.validatePlugin crates name plugin
  ensure (config.alerts.historySize != 0) "alerts.history_size must be at least 1"
  let seconds := crates.displayF64 config.alerts.minDurationSeconds
  ensure (config.alerts.minDurationSeconds.isFinite && 0 ≤ config.alerts.minDurationSeconds)
    s!"alerts.min_duration_seconds must be >= 0, got {seconds}"

end Config

/-- Replaces `password_env` with the secret it names in the environment. -/
def ServerConfig.resolvePassword (environment : String → Option String) (server : ServerConfig) :
    Except ConfigError ServerConfig :=
  match server.password, server.passwordEnv with
  | some _, some _ =>
      .error (.invalid "set either [server].password or [server].password_env, not both")
  | none, some var =>
      match environment var with
      | none =>
          .error (.invalid s!"[server].password_env names ${var}, which is not set (or not valid UTF-8)")
      | some value =>
          if value.isEmpty then
            .error (.invalid s!"environment variable ${var} (from [server].password_env) is empty")
          else .ok { server with password := some value, passwordEnv := none }
  | _, none => .ok server

namespace Config

def fromToml (crates : Crates) (environment : String → Option String) (input : String) :
    Except ConfigError Config := do
  let config ← (crates.tomlFromStr input).mapError .parse
  config.validate crates
  let server ← config.server.resolvePassword environment
  return { config with server }

def refreshSecs (config : Config) (plugin : String) : Float :=
  ((config.plugins.lookup plugin).bind PluginConfig.refresh).getD config.collect.refresh

def refreshFor (config : Config) (plugin : String) : Option Duration :=
  Duration.fromSecsF64? (config.refreshSecs plugin)

def idleTimeoutFor (config : Config) (plugin : String) : Option Duration := do
  (← config.refreshFor plugin).mul? config.collect.idleCycles.toNat

def guardTimeout (config : Config) : Option Duration :=
  Duration.fromSecsF64? config.collect.guardTimeout

def pluginEnabled (config : Config) (plugin : String) : Bool :=
  ((config.plugins.lookup plugin).bind PluginConfig.enabled).getD true

end Config

end GlancesRs
