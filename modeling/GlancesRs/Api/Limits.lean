import GlancesRs.Alerts.Ladder
import GlancesRs.Data.Members

namespace GlancesRs

open Data

/-! What the API says of the limits in force: once in a field's schema, once in
the limits of a plugin, against what the alert engine resolves. -/

def FieldUnit.asStr : FieldUnit → String
  | .bytes => "bytes"
  | .percent => "percent"
  | .bytesPerSec => "bytespers"
  | .bitPerSec => "bitpersecond"
  | .number => "number"
  | .float => "float"
  | .bool => "bool"
  | .stringT => "string"
  | .seconds => "seconds"

def Direction.asStr : Direction → String
  | .high => "high"
  | .low => "low"

def setLimits (t : Thresholds) : List (String × Json) :=
  let m := insertSome "careful" (t.careful.map Json.ofF64) []
  let m := insertSome "warning" (t.warning.map Json.ofF64) m
  insertSome "critical" (t.critical.map Json.ofF64) m

/-- The limits that are set; `none` when none is. -/
def thresholdsJson (t : Thresholds) : Option Json :=
  let m := setLimits t
  if m.isEmpty then none else some (.object m)

/-- The global limits in force for a field; items do not enter. -/
def configuredThresholds (config : Config) (id : PluginId) (field : String) : Option Json := do
  thresholdsJson (← effectiveGlobal config id field)

def insertFlag (key : String) (set : Bool) (members : List (String × Json)) :
    List (String × Json) :=
  insertSome key (if set then some (.bool true) else none) members

def fieldSchema (config : Config) (id : PluginId) (fi : FieldInfo) : Json :=
  let m := insertMember "description" (.string fi.description) []
  let m := insertMember "unit" (.string fi.unit.asStr) m
  let m := insertSome "short_name" (fi.shortName.map Json.string) m
  let m := insertFlag "primary_key" fi.primaryKey m
  let m := insertFlag "rate" fi.rate m
  let m := insertFlag "internal" fi.internal m
  let m :=
    if fi.watched then
      let m := insertMember "watched" (.bool true) m
      let m := insertMember "watch_direction" (.string fi.direction.asStr) m
      let m := insertMember "prominent" (.bool fi.prominent) m
      insertSome "default_thresholds" (configuredThresholds config id fi.field) m
    else m
  .object (insertSome "normalize_by" (fi.normalizeBy.map Json.string) m)

/-- One item's overrides of the plugin's watched fields. -/
def itemLimits (id : PluginId) (byField : HashMap String Thresholds) : List (String × Json) :=
  collectMembers FieldInfo.field (fun fi => (byField.lookup fi.field).bind thresholdsJson)
    (alertFields id)

def perItemLimits (id : PluginId) (pc : PluginConfig) : List (String × Json) :=
  collectMembers Sigma.fst
    (fun entry =>
      let fieldsObj := itemLimits id entry.2
      if fieldsObj.isEmpty then none else some (.object fieldsObj))
    pc.thresholdsByItem.entries

def limitsFor (config : Config) (id : PluginId) : List (String × Json) :=
  let out := collectMembers FieldInfo.field (fun fi => configuredThresholds config id fi.field)
    (alertFields id)
  let perItem := (config.plugins.lookup id.asStr).elim [] (perItemLimits id)
  if perItem.isEmpty then out else insertMember "_per_item" (.object perItem) out

/-! How a reader of the API takes these objects. -/

def globalLimits (config : Config) (id : PluginId) (field : String) : Option Json :=
  (limitsFor config id).lookup field

def itemOverrides (config : Config) (id : PluginId) (item field : String) : Option Json :=
  (((limitsFor config id).lookup "_per_item").bind (Json.get? item)).bind (Json.get? field)

/-- One block over another, limit by limit. -/
def overlay : Option Json → Option Json → Option Json
  | some (.object upper), some (.object lower) => some (.object (overlayMembers upper lower))
  | none, lower => lower
  | upper, _ => upper

/-- The limits under the names the API gives them. -/
def Thresholds.named (t : Thresholds) : String → Option Float
  | "careful" => t.careful
  | "warning" => t.warning
  | "critical" => t.critical
  | _ => none

def Effective.named (limits : Effective) : String → Option Float
  | "careful" => limits.careful
  | "warning" => limits.warning
  | "critical" => limits.critical
  | _ => none

/-- A JSON object with these limits as its numbers, and nothing else in it. -/
def Shows (limits : Effective) (shown : Json) : Prop :=
  ∃ members, shown = .object members ∧
    ∀ name, members.lookup name = (limits.named name).map fun limit => .number (.float limit)

/-- The views of a plugin's limits. Two optional ones agree when they are absent
together or show the same limits. -/
structure LimitsAgree (config : Config) (id : PluginId) : Prop where
  global : ∀ fi ∈ alertFields id,
    Option.Rel Shows (resolve config id none fi.field) (globalLimits config id fi.field)
  schema : ∀ fi ∈ alertFields id,
    Option.Rel Shows (resolve config id none fi.field)
      ((fieldSchema config id fi).get? "default_thresholds")
  overlaid : ∀ item, ∀ fi ∈ alertFields id,
    Option.Rel Shows (resolve config id (some item) fi.field)
      (overlay (itemOverrides config id item fi.field) (globalLimits config id fi.field))
  watched : ∀ key shown, (limitsFor config id).lookup key = some shown →
    key = "_per_item" ∨ ∃ fi ∈ alertFields id, fi.field = key
  overrides_watched : ∀ item field shown, itemOverrides config id item field = some shown →
    ∃ fi ∈ alertFields id, fi.field = field

section Blocks

variable {limits upper lower : String → Option Float} {shown above below : Option Json}
variable {t : Thresholds} {name : String}

/-- What a threshold block of the API shows: nothing, or the limits that are set. -/
inductive Block (limits : String → Option Float) : Option Json → Prop
  | absent (unset : ∀ name, limits name = none) : Block limits none
  | present {members : List (String × Json)} (set : ∃ name, limits name ≠ none)
      (shown : ∀ name, members.lookup name =
        (limits name).map fun limit => .number (.float limit)) :
      Block limits (some (.object members))

theorem Block.overlay (first : Block upper above) (second : Block lower below) :
    Block (fun name => (upper name).or (lower name)) (overlay above below) := by
  cases first with
  | absent unset =>
      have same : (fun name => (upper name).or (lower name)) = lower :=
        funext fun name => by rw [unset name, Option.none_or]
      rw [same]
      cases below <;> exact second
  | present set shown =>
      obtain ⟨name, set⟩ := set
      have kept : ∃ name, (upper name).or (lower name) ≠ none :=
        ⟨name, fun absent => set (Option.or_eq_none_iff.mp absent).1⟩
      cases second with
      | absent unset =>
          refine .present kept fun name => ?_
          rw [shown, unset, Option.or_none]
      | present _ under =>
          refine .present kept fun name => ?_
          rw [lookup_overlayMembers, shown, under]
          cases upper name <;> rfl

theorem setLimits_lookup (t : Thresholds) (name : String) :
    (setLimits t).lookup name = (t.named name).map Json.ofF64 := by
  simp only [setLimits]
  rw [lookup_insertSome, lookup_insertSome, lookup_insertSome List.lookup_nil]
  · by_cases critical : name = "critical"
    · simp [critical, Thresholds.named]
    · by_cases warning : name = "warning"
      · simp [warning, Thresholds.named]
      · by_cases careful : name = "careful"
        · simp [careful, Thresholds.named]
        · simp [critical, warning, careful, Thresholds.named]
  · simp [lookup_insertSome_of_ne]
  · simp [lookup_insertSome_of_ne]

/-- No limit of the block is an infinity or a NaN, which JSON could not show. -/
def Thresholds.Finite (t : Thresholds) : Prop :=
  ∀ name limit, t.named name = some limit → limit.isFinite = true

theorem thresholdsJson_block (finite : t.Finite) : Block t.named (thresholdsJson t) := by
  simp only [thresholdsJson]
  split
  · rename_i empty
    refine .absent fun name => ?_
    simpa [setLimits_lookup] using isEmpty_iff_lookup.mp empty name
  · rename_i nonempty
    rw [isEmpty_iff_lookup, not_forall] at nonempty
    obtain ⟨name, held⟩ := nonempty
    refine .present ⟨name, by simpa [setLimits_lookup] using held⟩ fun name => ?_
    rw [setLimits_lookup]
    cases set : t.named name with
    | none => rfl
    | some limit => simp [Json.ofF64, finite name limit set]

theorem bind_thresholdsJson_block {t : Option Thresholds} (finite : ∀ block ∈ t, block.Finite) :
    Block (fun name => t.bind (Thresholds.named · name)) (t.bind thresholdsJson) := by
  cases t with
  | none => exact .absent fun _ => rfl
  | some block => exact thresholdsJson_block (finite block rfl)

end Blocks

section Sources

variable {crates : Crates} {config : Config} {id : PluginId} {fi : FieldInfo}
variable {item : Option String} {field : String} {shown : Option Json} {t : Thresholds}

theorem Thresholds.WellOrdered.finite (ordered : t.WellOrdered) : t.Finite := by
  intro name limit set
  rw [Thresholds.named.eq_def] at set
  split at set
  · exact ordered.careful_finite limit set
  · exact ordered.warning_finite limit set
  · exact ordered.critical_finite limit set
  · cases set

theorem itemThresholds_finite (validated : config.Validated crates) :
    ∀ block ∈ itemThresholds config id item field, block.Finite := by
  intro specific found name limit set
  obtain ⟨plugin, listed, itemized⟩ := Option.bind_eq_some_iff.mp found
  obtain ⟨overrides, keyed, declared⟩ := Option.bind_eq_some_iff.mp itemized
  obtain ⟨key, rfl, keyed⟩ := Option.bind_eq_some_iff.mp keyed
  have merged :=
    (validated.plugins _ plugin listed).merged key overrides field specific keyed declared
  refine merged.finite name limit ?_
  rw [Thresholds.named.eq_def] at set ⊢
  split at set <;> simp [Config.mergedThresholds, set]

/-- The merge the alert engine makes of the two blocks in force. -/
def Effective.merged (specific global : Option Thresholds) : Effective where
  careful := (specific.bind Thresholds.careful).or (global.bind Thresholds.careful)
  warning := (specific.bind Thresholds.warning).or (global.bind Thresholds.warning)
  critical := (specific.bind Thresholds.critical).or (global.bind Thresholds.critical)

theorem Effective.merged_named (specific global : Option Thresholds) (name : String) :
    (merged specific global).named name =
      (specific.bind (Thresholds.named · name)).or (global.bind (Thresholds.named · name)) := by
  rw [Effective.named.eq_def]
  split
  · rfl
  · rfl
  · rfl
  · cases specific <;> cases global <;> simp [Thresholds.named, *]

theorem Effective.unset_iff (limits : Effective) :
    (limits.careful.isNone && limits.warning.isNone && limits.critical.isNone) = true ↔
      ∀ name, limits.named name = none := by
  simp only [Bool.and_eq_true, Option.isNone_iff_eq_none]
  constructor
  · intro unset name
    obtain ⟨⟨careful, warning⟩, critical⟩ := unset
    rw [Effective.named.eq_def]
    split
    · exact careful
    · exact warning
    · exact critical
    · rfl
  · intro unset
    exact ⟨⟨unset "careful", unset "warning"⟩, unset "critical"⟩

/-- A block that shows the merge of the two sources shows what is resolved. -/
theorem Block.rel_resolve
    (block : Block (fun name =>
      ((itemThresholds config id item field).bind (Thresholds.named · name)).or
        ((effectiveGlobal config id field).bind (Thresholds.named · name))) shown) :
    Option.Rel Shows (resolve config id item field) shown := by
  have resolved : resolve config id item field =
      let limits := Effective.merged (itemThresholds config id item field)
        (effectiveGlobal config id field)
      if limits.careful.isNone && limits.warning.isNone && limits.critical.isNone then none
      else some limits := rfl
  simp only [← Effective.merged_named] at block
  cases block with
  | absent unset =>
      rw [resolved, if_pos ((Effective.unset_iff _).mpr unset)]
      exact .none
  | present set shown =>
      obtain ⟨name, set⟩ := set
      rw [resolved, if_neg fun unset => set ((Effective.unset_iff _).mp unset name)]
      exact .some ⟨_, rfl, shown⟩

theorem configuredThresholds_block (validated : config.Validated crates) :
    Block (fun name => (effectiveGlobal config id field).bind (Thresholds.named · name))
      (configuredThresholds config id field) :=
  bind_thresholdsJson_block fun _ found =>
    Thresholds.WellOrdered.finite (effectiveGlobal_ordered validated found)

theorem configuredThresholds_shows (validated : config.Validated crates) :
    Option.Rel Shows (resolve config id none field) (configuredThresholds config id field) := by
  refine Block.rel_resolve ?_
  have unspecific : itemThresholds config id none field = none := by
    cases listed : config.plugins.lookup id.asStr <;> simp [itemThresholds, listed]
  simpa only [unspecific, Option.bind_none, Option.none_or] using
    configuredThresholds_block validated

end Sources

section Views

variable {crates : Crates} {config : Config} {id : PluginId} {fi : FieldInfo}
variable {ν β : Type} {key item : String}

theorem HashMap.lookup_collectMembers (map : HashMap String ν)
    (valueOf : (_ : String) × ν → Option β) :
    (collectMembers Sigma.fst valueOf map.entries).lookup key =
      (map.lookup key).bind fun value => valueOf ⟨key, value⟩ := by
  have distinct : (map.entries.map Sigma.fst).Nodup := map.nodupKeys
  cases found : map.lookup key with
  | some value =>
      exact lookup_collectMembers_of_mem distinct (HashMap.lookup_eq_some.mp found)
  | none =>
      have absent : map.entries.find? (Sigma.fst · = key) = none := by
        refine List.find?_eq_none.mpr fun entry inside => ?_
        intro named
        obtain ⟨other, value⟩ := entry
        obtain rfl := of_decide_eq_true named
        rw [HashMap.lookup_eq_some.mpr inside] at found
        cases found
      rw [Data.lookup_collectMembers distinct, absent]
      rfl

theorem alertFields_ne_perItem (listed : fi ∈ alertFields id) : fi.field ≠ "_per_item" := by
  have table : ∀ fi ∈ alertFields id, fi.field ≠ "_per_item" := by
    cases id <;> decide
  exact table fi listed

theorem globalLimits_eq (listed : fi ∈ alertFields id) :
    globalLimits config id fi.field = configuredThresholds config id fi.field := by
  have field : (collectMembers FieldInfo.field
        (fun fi => configuredThresholds config id fi.field) (alertFields id)).lookup fi.field =
      configuredThresholds config id fi.field :=
    lookup_collectMembers_of_mem (alertFields_nodup id) listed
  simp only [globalLimits, limitsFor]
  split
  · exact field
  · rw [lookup_insertMember_of_ne (alertFields_ne_perItem listed), field]

/-- Leaving an empty object out does not change what is read. -/
theorem bind_get?_nonempty (members : List (String × Json)) (key : String) :
    (if members.isEmpty then none else some (Json.object members)).bind (Json.get? key) =
      members.lookup key := by
  split
  · rename_i empty
    rw [isEmpty_iff_lookup.mp empty key, Option.bind_none]
  · rfl

theorem perItemLimits_lookup (pc : PluginConfig) (item field : String) :
    ((perItemLimits id pc).lookup item).bind (Json.get? field) =
      (pc.thresholdsByItem.lookup item).bind fun byField => (itemLimits id byField).lookup field := by
  rw [perItemLimits, HashMap.lookup_collectMembers]
  cases pc.thresholdsByItem.lookup item with
  | none => rfl
  | some byField => exact bind_get?_nonempty _ field

theorem limitsFor_perItem :
    ((limitsFor config id).lookup "_per_item").bind (Json.get? item) =
      (config.plugins.lookup id.asStr).bind fun pc => (perItemLimits id pc).lookup item := by
  have apart : (alertFields id).find? (FieldInfo.field · = "_per_item") = none :=
    List.find?_eq_none.mpr fun fi listed => by simpa using alertFields_ne_perItem listed
  have unlisted : (collectMembers FieldInfo.field
      (fun fi => configuredThresholds config id fi.field) (alertFields id)).lookup "_per_item" =
        none := by
    rw [lookup_collectMembers (alertFields_nodup id), apart, Option.bind_none]
  have shown : (limitsFor config id).lookup "_per_item" =
      let perItem := (config.plugins.lookup id.asStr).elim [] (perItemLimits id)
      if perItem.isEmpty then none else some (.object perItem) := by
    simp only [limitsFor]
    split
    · exact unlisted
    · exact lookup_insertMember_self
  rw [shown, bind_get?_nonempty]
  cases config.plugins.lookup id.asStr <;> rfl

theorem itemOverrides_eq_bind (field : String) :
    itemOverrides config id item field =
      (config.plugins.lookup id.asStr).bind fun pc =>
        (pc.thresholdsByItem.lookup item).bind fun byField => (itemLimits id byField).lookup field := by
  rw [itemOverrides, limitsFor_perItem, Option.bind_assoc]
  simp only [perItemLimits_lookup]

theorem itemOverrides_eq (listed : fi ∈ alertFields id) :
    itemOverrides config id item fi.field =
      (itemThresholds config id (some item) fi.field).bind thresholdsJson := by
  have field : ∀ byField : HashMap String Thresholds,
      (itemLimits id byField).lookup fi.field = (byField.lookup fi.field).bind thresholdsJson :=
    fun _ => lookup_collectMembers_of_mem (alertFields_nodup id) listed
  simp only [itemOverrides_eq_bind, itemThresholds, field, Option.bind_assoc, Option.bind_some]

theorem fieldSchema_thresholds (listed : fi ∈ alertFields id) :
    (fieldSchema config id fi).get? "default_thresholds" = configuredThresholds config id fi.field := by
  have watched : fi.watched = true := (List.mem_filter.mp listed).2
  simp only [fieldSchema, watched, if_true, Json.get?_object]
  rw [lookup_insertSome_of_ne (by decide), lookup_insertSome, if_pos rfl]
  simp [insertFlag, lookup_insertSome_of_ne, lookup_insertMember_of_ne]

theorem limitsFor_watched {shown : Json} (listed : (limitsFor config id).lookup key = some shown) :
    key = "_per_item" ∨ ∃ fi ∈ alertFields id, fi.field = key := by
  by_cases named : key = "_per_item"
  · exact .inl named
  · right
    have field : (collectMembers FieldInfo.field
        (fun fi => configuredThresholds config id fi.field) (alertFields id)).lookup key =
          some shown := by
      simp only [limitsFor] at listed
      split at listed
      · exact listed
      · rwa [lookup_insertMember_of_ne named] at listed
    obtain ⟨fi, inside, named, _⟩ := collectMembers_source (alertFields_nodup id) field
    exact ⟨fi, inside, named⟩

theorem itemOverrides_watched {field : String} {shown : Json}
    (listed : itemOverrides config id item field = some shown) :
    ∃ fi ∈ alertFields id, fi.field = field := by
  rw [itemOverrides_eq_bind] at listed
  obtain ⟨pc, _, itemized⟩ := Option.bind_eq_some_iff.mp listed
  obtain ⟨byField, _, held⟩ := Option.bind_eq_some_iff.mp itemized
  obtain ⟨fi, inside, named, _⟩ := collectMembers_source (alertFields_nodup id) held
  exact ⟨fi, inside, named⟩

/-- Of an accepted configuration the API reports the limits the alert engine
applies. -/
theorem limits_agree (accepted : config.validate crates = .ok ()) (id : PluginId) :
    LimitsAgree config id := by
  have validated := Config.validate_ok accepted
  refine
    { global := fun fi listed => ?_
      schema := fun fi listed => ?_
      overlaid := fun item fi listed => ?_
      watched := fun key shown found => limitsFor_watched found
      overrides_watched := fun item field shown found => itemOverrides_watched found }
  · rw [globalLimits_eq listed]
    exact configuredThresholds_shows validated
  · rw [fieldSchema_thresholds listed]
    exact configuredThresholds_shows validated
  · rw [itemOverrides_eq listed, globalLimits_eq listed]
    have specific := bind_thresholdsJson_block
      (@itemThresholds_finite crates config id (some item) fi.field validated)
    exact (specific.overlay (configuredThresholds_block validated)).rel_resolve

theorem mergedLadder_limits_agree : LimitsAgree mergedLadder .fs :=
  @limits_agree (.ofDocument "" mergedLadder) mergedLadder (by rfl) .fs

end Views

end GlancesRs
