import GlancesRs.Config.Model
import GlancesRs.Data.Json

namespace GlancesRs

open Data

/-! Levels of one cycle: which limits are in force for a field of an item, and
which of them its value breaches. -/

inductive Level where
  | ok | careful | warning | critical
deriving DecidableEq, Repr

instance : Inhabited Level := ⟨.ok⟩

def Level.asStr : Level → String
  | .ok => "ok"
  | .careful => "careful"
  | .warning => "warning"
  | .critical => "critical"

structure Effective where
  careful : Option Float
  warning : Option Float
  critical : Option Float
deriving DecidableEq

def breached (value : Float) (dir : Direction) (limit : Option Float) : Bool :=
  match limit, dir with
  | some l, .high => l ≤ value
  | some l, .low => value ≤ l
  | none, _ => false

def computeLevel (value : Float) (t : Effective) (dir : Direction) : Level :=
  if breached value dir t.critical then .critical
  else if breached value dir t.warning then .warning
  else if breached value dir t.careful then .careful
  else .ok

/-- The operator's block for `field`, which replaces the built-in one as a
whole, or the built-in one under `use_builtin_defaults`. -/
def effectiveGlobal (config : Config) (id : PluginId) (field : String) : Option Thresholds :=
  ((config.plugins.lookup id.asStr).bind fun pc => pc.thresholds.lookup field).or
    (if config.alerts.useBuiltinDefaults then builtinThresholds id field else none)

def itemThresholds (config : Config) (id : PluginId) (item : Option String) (field : String) :
    Option Thresholds :=
  (config.plugins.lookup id.asStr).bind fun pc =>
    (item.bind fun i => pc.thresholdsByItem.lookup i).bind fun m => m.lookup field

/-- Item-specific limits over global ones, per limit; `none` without any limit. -/
def resolve (config : Config) (id : PluginId) (item : Option String) (field : String) :
    Option Effective :=
  let global := effectiveGlobal config id field
  let specific := itemThresholds config id item field
  let pick (get : Thresholds → Option Float) := (specific.bind get).or (global.bind get)
  let e : Effective :=
    { careful := pick Thresholds.careful
      warning := pick Thresholds.warning
      critical := pick Thresholds.critical }
  if e.careful.isNone && e.warning.isNone && e.critical.isNone then none else some e

def minDurationSecs (config : Config) (id : PluginId) : Float :=
  ((config.plugins.lookup id.asStr).bind PluginConfig.minDurationSeconds).getD
    config.alerts.minDurationSeconds

def effectiveMinDuration (config : Config) (id : PluginId) : Option Duration :=
  Duration.fromSecsF64? (minDurationSecs config id)

/-- The level and the undivided value of one alertable field; `none` when the
field or its divisor is missing, the divisor is unusable, or no limit is set. -/
def levelFor (config : Config) (id : PluginId) (item : Option String) (af : FieldInfo)
    (stats : Json) : Option (Level × Float) := do
  let raw ← (stats.get? af.field).bind Json.asF64?
  let thresholds ← resolve config id item af.field
  let compared ←
    match af.normalizeBy with
    | none => some raw
    | some divisorField => do
        let divisor ← (stats.get? divisorField).bind Json.asF64?
        if !divisor.isFinite || divisor == 0 then none else some (raw / divisor)
  return (computeLevel compared thresholds af.direction, raw)

def levelEntry (level : Level) (prominent : Bool) : Json :=
  .object [("level", .string level.asStr), ("prominent", .bool prominent)]

def jsonKey [NumberText] : Json → Option String
  | .string text => some text
  | .number number => some (NumberText.text number)
  | _ => none

end GlancesRs
