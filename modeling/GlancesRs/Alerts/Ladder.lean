import GlancesRs.Alerts.Levels
import GlancesRs.Config.Validated

namespace GlancesRs

open Data

/-! The limits in force are ordered: validation and the alert engine merge the
same three sources, and the pairs validation never sees fall back on a block it
has checked or on the built-in table. -/

variable {crates : Crates} {config : Config} {id : PluginId} {item : Option String}
variable {field : String} {limits : Effective}

abbrev Effective.WellOrdered (e : Effective) : Prop :=
  OrderedLimits e.careful e.warning e.critical

theorem defaults_ordered (id : PluginId) : ∀ info ∈ fields id, ∀ careful warning critical,
    info.defaults = some (careful, warning, critical) →
      OrderedLimits (some careful) (some warning) (some critical) := by
  have table : ∀ info ∈ fields id, info.defaults.all fun limits =>
      limits.1.isFinite && limits.2.1.isFinite && limits.2.2.isFinite &&
        (limits.1 ≤ limits.2.1 : Bool) && (limits.2.1 ≤ limits.2.2 : Bool) &&
        (limits.1 ≤ limits.2.2 : Bool) := by
    cases id <;> decide +kernel
  intro info member careful warning critical declared
  have checked := table info member
  simp only [declared, Option.all_some, Bool.and_eq_true, decide_eq_true_eq] at checked
  obtain ⟨⟨⟨⟨⟨low, middle⟩, high⟩, lowMiddle⟩, middleHigh⟩, lowHigh⟩ := checked
  constructor <;> simpa

/-- The built-in table passes the check operator blocks go through. -/
theorem builtinThresholds_ordered {t : Thresholds} (found : builtinThresholds id field = some t) :
    t.WellOrdered := by
  obtain ⟨info, listed, ladder⟩ := Option.bind_eq_some_iff.mp found
  obtain ⟨⟨careful, warning, critical⟩, declared, built⟩ := Option.bind_eq_some_iff.mp ladder
  cases built
  exact defaults_ordered id info (List.mem_of_find?_eq_some listed) _ _ _ declared

theorem effectiveGlobal_ordered (validated : config.Validated crates) {t : Thresholds}
    (found : effectiveGlobal config id field = some t) : t.WellOrdered := by
  rw [effectiveGlobal] at found
  cases declared : (config.plugins.lookup id.asStr).bind fun pc => pc.thresholds.lookup field with
  | some block =>
      obtain ⟨plugin, listed, blocked⟩ := Option.bind_eq_some_iff.mp declared
      rw [declared, Option.some_or, Option.some.injEq] at found
      exact found ▸ (validated.plugins _ plugin listed).thresholds field block blocked
  | none =>
      rw [declared, Option.none_or] at found
      split at found
      · exact builtinThresholds_ordered found
      · cases found

/-- Validation and the alert engine take a section's global block from the same
places. -/
theorem declaredGlobal_eq {plugin : PluginConfig}
    (listed : config.plugins.lookup id.asStr = some plugin) (field : String) :
    config.declaredGlobal id.asStr plugin field = effectiveGlobal config id field := by
  simp [Config.declaredGlobal, effectiveGlobal, listed]

theorem resolve_limits (resolved : resolve config id item field = some limits) :
    limits.WellOrdered ↔
      (Config.mergedThresholds ((itemThresholds config id item field).getD {})
        (effectiveGlobal config id field)).WellOrdered := by
  simp only [resolve] at resolved
  split at resolved
  · cases resolved
  · cases resolved
    cases specific : itemThresholds config id item field <;> simp [Config.mergedThresholds]

/-- Whatever ladder the alert engine resolves is finite and ordered. -/
theorem resolve_ordered (accepted : config.validate crates = .ok ())
    (resolved : resolve config id item field = some limits) : limits.WellOrdered := by
  have validated := Config.validate_ok accepted
  rw [resolve_limits resolved]
  cases specific : itemThresholds config id item field with
  | some block =>
      obtain ⟨plugin, listed, declared⟩ := Option.bind_eq_some_iff.mp specific
      obtain ⟨overrides, itemized, found⟩ := Option.bind_eq_some_iff.mp declared
      obtain ⟨key, rfl, keyed⟩ := Option.bind_eq_some_iff.mp itemized
      rw [← declaredGlobal_eq listed]
      exact (validated.plugins _ plugin listed).merged key overrides field block keyed found
  | none =>
      cases global : effectiveGlobal config id field with
      | some block => simpa [Config.mergedThresholds] using effectiveGlobal_ordered validated global
      | none => constructor <;> simp [Config.mergedThresholds]

def mergedLadder : Config where
  plugins := AList.singleton "fs" {
    thresholds := AList.singleton "percent" { careful := some 70, warning := some 80 }
    thresholdsByItem := AList.singleton "/" (AList.singleton "percent" { critical := some 95 }) }

theorem mergedLadder_resolve_ordered :
    Effective.WellOrdered ⟨some 70, some 80, some 95⟩ :=
  @resolve_ordered (.ofDocument "" mergedLadder) mergedLadder .fs (some "/") "percent" _ (by rfl)
    (by decide +kernel)

end GlancesRs
