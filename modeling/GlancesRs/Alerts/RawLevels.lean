import GlancesRs.Alerts.Independence
import GlancesRs.Plugins.Envelope

namespace GlancesRs

open Data

/-! What a call publishes under `_levels`: the raw levels of the payload at
hand, and nothing of the state behind it. -/

def numberAt (stats : Json) (field : String) : Option Float :=
  (stats.get? field).bind Json.asF64?

/-- The stats a key stands for: an item of the payload that has it as primary
key, or the payload of a scalar plugin. -/
def Item [NumberText] (id : PluginId) (payload : Json) (key : Option String) (stats : Json) : Prop :=
  match id.keyField with
  | none => key = none ∧ stats = payload
  | some pkField => stats ∈ items payload ∧ ∃ k, key = some k ∧ primaryKey pkField stats = some k

/-- The published entry for a field of a key. -/
def entryIn (value : Json) (key : Option String) (field : String) : Option Json := do
  let levels ← value.get? "_levels"
  let levels ←
    match key with
    | none => some levels
    | some key => levels.get? key
  levels.get? field

def Level.severity : Level → ℕ
  | .ok => 0
  | .careful => 1
  | .warning => 2
  | .critical => 3

def Effective.limit (limits : Effective) : Level → Option Float
  | .ok => none
  | .careful => limits.careful
  | .warning => limits.warning
  | .critical => limits.critical

/-- No limit of a worse level is breached, and the level's own one is. -/
structure WorstBreach (value : Float) (limits : Effective) (dir : Direction) (level : Level) :
    Prop where
  breaches : level ≠ .ok → breached value dir (limits.limit level) = true
  worst : ∀ other, breached value dir (limits.limit other) = true → other.severity ≤ level.severity

/-- What a field's value is compared as: divided by its divisor field if it has one. -/
def ComparedAs (af : FieldInfo) (stats : Json) (raw compared : Float) : Prop :=
  match af.normalizeBy with
  | none => compared = raw
  | some divisorField =>
      ∃ divisor, numberAt stats divisorField = some divisor ∧ (divisor == 0) = false ∧
        compared = raw / divisor

/-- Numbers of a JSON document are finite, whatever their representation. -/
def FiniteNumbers [NumberText] (id : PluginId) (payload : Json) : Prop :=
  ∀ key stats field number, Item id payload key stats → numberAt stats field = some number →
    number.isFinite = true

structure RawLevels [NumberText] (config : Config) (id : PluginId) (payload value : Json) : Prop where
  entry_iff : ∀ key stats field, Item id payload key stats →
    ((entryIn value key field).isSome = true ↔
      ∃ af ∈ alertFields id, af.field = field ∧ (numberAt stats field).isSome = true ∧
        (resolve config id key field).isSome = true ∧
        ∀ divisorField ∈ af.normalizeBy, ∃ divisor,
          numberAt stats divisorField = some divisor ∧ (divisor == 0) = false)
  entry_level : ∀ key stats field entry, Item id payload key stats →
    entryIn value key field = some entry →
    ∃ af ∈ alertFields id, af.field = field ∧ ∃ raw limits compared level,
      numberAt stats field = some raw ∧ resolve config id key field = some limits ∧
      ComparedAs af stats raw compared ∧ WorstBreach compared limits af.direction level ∧
      entry = levelEntry level af.prominent
  keys : ∀ pkField k levels, id.keyField = some pkField →
    (value.get? "_levels").bind (Json.get? k) = some levels →
    ∃ stats, Item id payload (some k) stats ∧ ∃ field, (entryIn value (some k) field).isSome = true
  others : ∀ name, name ≠ "_levels" → value.get? name = payload.get? name

section Fields

variable {config : Config} {id : PluginId} {key item : Option String} {stats entry : Json}
variable {af : FieldInfo} {field : String} {value raw : Float} {limits : Effective} {level : Level}

theorem computeLevel_worst (value : Float) (limits : Effective) (dir : Direction) :
    WorstBreach value limits dir (computeLevel value limits dir) := by
  rw [computeLevel]
  split
  · rename_i critical
    exact ⟨fun _ => critical, fun other _ => by cases other <;> decide⟩
  · rename_i notCritical
    split
    · rename_i warning
      refine ⟨fun _ => warning, fun other breach => ?_⟩
      cases other with
      | critical => exact absurd breach notCritical
      | _ => decide
    · rename_i notWarning
      split
      · rename_i careful
        refine ⟨fun _ => careful, fun other breach => ?_⟩
        cases other with
        | critical => exact absurd breach notCritical
        | warning => exact absurd breach notWarning
        | _ => decide
      · rename_i notCareful
        refine ⟨fun away => absurd rfl away, fun other breach => ?_⟩
        cases other with
        | critical => exact absurd breach notCritical
        | warning => exact absurd breach notWarning
        | careful => exact absurd breach notCareful
        | ok => exact Nat.le_refl 0

/-- The level of a field, when all its numbers are finite. -/
theorem levelFor_eq_some (finite : ∀ field number, numberAt stats field = some number →
      number.isFinite = true) :
    levelFor config id key af stats = some (level, raw) ↔
      numberAt stats af.field = some raw ∧ ∃ limits compared,
        resolve config id key af.field = some limits ∧ ComparedAs af stats raw compared ∧
        level = computeLevel compared limits af.direction := by
  cases normalized : af.normalizeBy with
  | none =>
      simp only [levelFor, ComparedAs, numberAt, normalized, Option.bind_eq_bind, Option.pure_def,
        Option.bind_eq_some_iff, Option.bind_some, Option.some.injEq, Prod.mk.injEq]
      constructor
      · intro computed
        obtain ⟨_, numeric, limits, resolved, level, rfl⟩ := computed
        exact ⟨numeric, limits, _, resolved, rfl, level.symm⟩
      · intro parts
        obtain ⟨numeric, limits, _, resolved, rfl, level⟩ := parts
        exact ⟨_, numeric, limits, resolved, level.symm, rfl⟩
  | some divisorField =>
      simp only [levelFor, ComparedAs, normalized, Option.bind_eq_bind, Option.pure_def,
        Option.bind_eq_some_iff]
      constructor
      · intro computed
        obtain ⟨_, numeric, limits, resolved, divisor, divided, quotient⟩ := computed
        split at quotient
        · cases quotient
        · rename_i usable
          rw [Option.bind_some, Option.some.injEq, Prod.mk.injEq] at quotient
          obtain ⟨level, rfl⟩ := quotient
          simp only [Bool.or_eq_true, not_or, Bool.not_eq_true] at usable
          exact ⟨Option.bind_eq_some_iff.mpr numeric, limits, _, resolved,
            ⟨divisor, Option.bind_eq_some_iff.mpr divided, usable.2, rfl⟩, level.symm⟩
      · intro parts
        obtain ⟨numeric, limits, _, resolved, ⟨divisor, divided, nonzero, rfl⟩, level⟩ := parts
        refine ⟨raw, Option.bind_eq_some_iff.mp numeric, limits, resolved, divisor,
          Option.bind_eq_some_iff.mp divided, ?_⟩
        simp [finite divisorField divisor divided, nonzero, level]

theorem levelMap_observations :
    (levelMap (observations config id key stats)).lookup field = some entry ↔
      ∃ af ∈ alertFields id, af.field = field ∧ ∃ level raw,
        levelFor config id key af stats = some (level, raw) ∧ entry = levelEntry level af.prominent := by
  have source : ∀ o ∈ observations config id key stats, o.af ∈ alertFields id ∧
      levelFor config id key o.af stats = some (o.level, o.raw) := by
    intro o member
    obtain ⟨af, listed, found⟩ := List.mem_filterMap.mp member
    obtain ⟨⟨level, raw⟩, computed, rfl⟩ := Option.map_eq_some_iff.mp found
    exact ⟨listed, computed⟩
  rw [levelMap_lookup, Option.map_eq_some_iff]
  constructor
  · intro last
    obtain ⟨o, final, rfl⟩ := last
    obtain ⟨member, named⟩ := List.mem_filter.mp (List.mem_of_getLast? final)
    obtain ⟨listed, computed⟩ := source o member
    exact ⟨o.af, listed, of_decide_eq_true named, o.level, o.raw, computed, rfl⟩
  · intro placed
    obtain ⟨af, listed, rfl, level, raw, computed, rfl⟩ := placed
    have member : (⟨key, af, level, raw⟩ : Observation) ∈
        (observations config id key stats).filter fun o => o.af.field = af.field := by
      refine List.mem_filter.mpr ⟨List.mem_filterMap.mpr ⟨af, listed, ?_⟩, by simp⟩
      rw [computed]
      rfl
    obtain ⟨o, final⟩ := Option.isSome_iff_exists.mp
      (List.getLast?_isSome.mpr (List.ne_nil_of_mem member))
    obtain ⟨inside, named⟩ := List.mem_filter.mp (List.mem_of_getLast? final)
    obtain ⟨other, computedLast⟩ := source o inside
    have same : o.af = af :=
      List.inj_on_of_nodup_map (alertFields_nodup id) other listed (of_decide_eq_true named)
    rw [same, computed, Option.some.injEq, Prod.mk.injEq] at computedLast
    exact ⟨o, final, by rw [same, computedLast.1]⟩

/-- An entry, by what the payload and the configuration say. -/
theorem levelMap_entry (finite : ∀ field number, numberAt stats field = some number →
      number.isFinite = true) :
    (levelMap (observations config id key stats)).lookup field = some entry ↔
      ∃ af ∈ alertFields id, af.field = field ∧ ∃ raw limits compared,
        numberAt stats field = some raw ∧ resolve config id key field = some limits ∧
        ComparedAs af stats raw compared ∧
        entry = levelEntry (computeLevel compared limits af.direction) af.prominent := by
  rw [levelMap_observations]
  constructor
  · intro placed
    obtain ⟨af, listed, rfl, level, raw, computed, rfl⟩ := placed
    obtain ⟨numeric, limits, compared, resolved, divided, rfl⟩ := (levelFor_eq_some finite).mp computed
    exact ⟨af, listed, rfl, raw, limits, compared, numeric, resolved, divided, rfl⟩
  · intro placed
    obtain ⟨af, listed, rfl, raw, limits, compared, numeric, resolved, divided, rfl⟩ := placed
    exact ⟨af, listed, rfl, _, raw,
      (levelFor_eq_some finite).mpr ⟨numeric, limits, compared, resolved, divided, rfl⟩, rfl⟩

theorem exists_comparedAs : (∃ compared, ComparedAs af stats raw compared) ↔
    ∀ divisorField ∈ af.normalizeBy, ∃ divisor,
      numberAt stats divisorField = some divisor ∧ (divisor == 0) = false := by
  unfold ComparedAs
  cases af.normalizeBy with
  | none => simp
  | some divisorField =>
      constructor
      · intro compared other same
        cases same
        obtain ⟨_, divisor, held, nonzero, _⟩ := compared
        exact ⟨divisor, held, nonzero⟩
      · intro usable
        obtain ⟨divisor, held, nonzero⟩ := usable divisorField rfl
        exact ⟨raw / divisor, divisor, held, nonzero, rfl⟩

/-- A field has an entry when it is a number, has limits and, where it needs one,
a divisor. -/
theorem levelMap_isSome (finite : ∀ field number, numberAt stats field = some number →
      number.isFinite = true) :
    ((levelMap (observations config id key stats)).lookup field).isSome = true ↔
      ∃ af ∈ alertFields id, af.field = field ∧ (numberAt stats field).isSome = true ∧
        (resolve config id key field).isSome = true ∧
        ∀ divisorField ∈ af.normalizeBy, ∃ divisor,
          numberAt stats divisorField = some divisor ∧ (divisor == 0) = false := by
  rw [Option.isSome_iff_exists]
  constructor
  · intro shown
    obtain ⟨entry, found⟩ := shown
    obtain ⟨af, listed, named, raw, limits, compared, numeric, resolved, divided, _⟩ :=
      (levelMap_entry finite).mp found
    exact ⟨af, listed, named, by simp [numeric], by simp [resolved],
      exists_comparedAs.mp ⟨compared, divided⟩⟩
  · intro parts
    obtain ⟨af, listed, named, numeric, resolved, usable⟩ := parts
    obtain ⟨raw, numeric⟩ := Option.isSome_iff_exists.mp numeric
    obtain ⟨limits, resolved⟩ := Option.isSome_iff_exists.mp resolved
    obtain ⟨compared, divided⟩ := (@exists_comparedAs stats af raw).mpr usable
    exact ⟨_, (levelMap_entry finite).mpr
      ⟨af, listed, named, raw, limits, compared, numeric, resolved, divided, rfl⟩⟩

theorem builtinThresholds_eq (listed : af ∈ fields id) (undeclared : af.defaults = none) :
    builtinThresholds id af.field = none := by
  have named : (fields id).find? (·.field == af.field) = some af :=
    find?_keyOf (fields_nodup id) listed
  rw [builtinThresholds, named]
  simp [undeclared]

/-- Without thresholds anywhere no watched field has a limit, for any item. -/
theorem resolve_unset (unset : hasThresholds config id = false) (listed : af ∈ alertFields id)
    (item : Option String) : resolve config id item af.field = none := by
  simp only [hasThresholds, Bool.or_eq_false_iff, Bool.and_eq_false_iff] at unset
  obtain ⟨declared, builtin⟩ := unset
  have global : effectiveGlobal config id af.field = none := by
    rw [effectiveGlobal, Option.or_eq_none_iff]
    refine ⟨?_, ?_⟩
    · cases found : config.plugins.lookup id.asStr with
      | none => rfl
      | some plugin =>
          rw [found, Option.any_some, Bool.or_eq_false_iff, Bool.not_eq_false'] at declared
          simp [AList.lookup, List.isEmpty_iff.mp declared.1]
    · rcases builtin with off | undeclared
      · simp [off]
      · have none : af.defaults = none := by
          simpa using List.any_eq_false.mp undeclared af listed
        rw [builtinThresholds_eq (List.mem_filter.mp listed).1 none, ite_self]
  have specific : itemThresholds config id item af.field = none := by
    rw [itemThresholds]
    cases found : config.plugins.lookup id.asStr with
    | none => rfl
    | some plugin =>
        rw [found, Option.any_some, Bool.or_eq_false_iff, Bool.not_eq_false', Bool.not_eq_false']
          at declared
        cases item with
        | none => rfl
        | some i => simp [AList.lookup, List.isEmpty_iff.mp declared.2]
  simp [resolve, global, specific]

theorem resolve_unwatched (unwatched : watched config id = false) (listed : af ∈ alertFields id)
    (item : Option String) : resolve config id item af.field = none := by
  rw [watched, Bool.and_eq_false_iff, Bool.not_eq_false'] at unwatched
  rcases unwatched with empty | unset
  · rw [List.isEmpty_iff.mp empty] at listed
    cases listed
  · exact resolve_unset unset listed item

end Fields

section Call

variable [NumberText] {config : Config} {id : PluginId} {payload value stats : Json}
variable {key : Option String} {field : String} {cycle : Cycle} {alerts : Alerts} {out : Observed}

/-- The payload with its raw levels; nothing else goes into what is published. -/
def withLevels (config : Config) (id : PluginId) (payload : Json) : Option Json :=
  if watched config id then payload.setKey? "_levels" (.object (scan config id payload).levels)
  else some payload

theorem observe_value (called : alerts.observe config cycle = some out) :
    withLevels config cycle.plugin cycle.payload = some out.value := by
  rw [withLevels]
  cases watching : watched config cycle.plugin with
  | false =>
      rw [observe_unwatched watching, Option.some.injEq] at called
      subst called
      rfl
  | true =>
      obtain ⟨_, _, _, value, _, _, _, _, written, _, _, valued⟩ := observe_parts watching called
      rw [valued]
      exact written

/-- An item's entries are those of its own levels. -/
theorem entryIn_item (distinct : DistinctKeys id payload) (named : Item id payload key stats)
    (published : value.get? "_levels" = some (.object (scan config id payload).levels)) :
    entryIn value key field = (levelMap (observations config id key stats)).lookup field := by
  rw [Item] at named
  rw [entryIn, published]
  cases kind : id.keyField with
  | none =>
      simp only [kind] at named
      obtain ⟨rfl, rfl⟩ := named
      simp [scan, kind]
  | some pkField =>
      simp only [kind] at named
      obtain ⟨member, k, rfl, keyed⟩ := named
      simp only [Option.bind_eq_bind, Option.bind_some, Json.get?_object]
      rw [levels_of_item distinct kind member keyed, itemLevels]
      by_cases empty : (observations config id (some k) stats).isEmpty = true
      · simp [List.isEmpty_iff.mp empty, levelMap]
      · simp only [empty, Bool.false_eq_true, if_false, Option.bind_some, Json.get?_object]

omit [NumberText] in
theorem entryIn_unpublished (published : value.get? "_levels" = some (.object [])) :
    entryIn value key field = none := by
  rw [entryIn, published]
  cases key <;> rfl

theorem rawLevels_unwatched (unwatched : watched config id = false) (enveloped : Enveloped payload) :
    RawLevels config id payload payload := by
  obtain ⟨members, rfl, _, empty⟩ := enveloped
  have published : (Json.object members).get? "_levels" = some (.object []) := empty
  refine ⟨fun key stats field _ => ?_, fun key stats field entry _ found => ?_,
    fun pkField k levels _ found => ?_, fun _ _ => rfl⟩
  · rw [entryIn_unpublished published]
    refine iff_of_false Bool.false_ne_true fun placed => ?_
    obtain ⟨af, listed, rfl, _, resolved, _⟩ := placed
    rw [resolve_unwatched unwatched listed] at resolved
    cases resolved
  · rw [entryIn_unpublished published] at found
    cases found
  · rw [published] at found
    cases found

/-- A key under `_levels` is that of an item with an observation. -/
theorem exists_item_of_levels {pkField k : String} {levels : Json} (distinct : DistinctKeys id payload)
    (kind : id.keyField = some pkField)
    (found : (scan config id payload).levels.lookup k = some levels) :
    ∃ stats, Item id payload (some k) stats ∧ ∃ field,
      ((levelMap (observations config id (some k) stats)).lookup field).isSome = true := by
  obtain ⟨stats, inside, keyed⟩ := exists_item_of_published kind found
  have named : Item id payload (some k) stats := by
    simpa only [Item, kind] using ⟨inside, k, rfl, keyed⟩
  rw [levels_of_item distinct kind inside keyed, itemLevels] at found
  split at found
  · cases found
  · rename_i observed
    rw [List.isEmpty_iff] at observed
    obtain ⟨o, observation⟩ := List.exists_mem_of_ne_nil _ observed
    obtain ⟨af, listed, computed⟩ := List.mem_filterMap.mp observation
    obtain ⟨⟨level, raw⟩, computed, _⟩ := Option.map_eq_some_iff.mp computed
    refine ⟨stats, named, af.field, Option.isSome_iff_exists.mpr ?_⟩
    exact ⟨_, levelMap_observations.mpr ⟨af, listed, rfl, level, raw, computed, rfl⟩⟩

theorem rawLevels_watched (distinct : DistinctKeys id payload) (finite : FiniteNumbers id payload)
    (written : payload.setKey? "_levels" (.object (scan config id payload).levels) = some value) :
    RawLevels config id payload value := by
  have published := Json.setKey?_get?_self written
  have entry {key : Option String} {stats : Json} {field : String}
      (named : Item id payload key stats) :=
    @entryIn_item _ config id payload value stats key field distinct named published
  refine ⟨fun key stats field named => ?_, fun key stats field shown named found => ?_,
    fun pkField k levels kind found => ?_, fun name other => Json.setKey?_get?_of_ne other written⟩
  · rw [entry named]
    exact levelMap_isSome fun _ _ => finite key stats _ _ named
  · rw [entry named] at found
    obtain ⟨af, listed, rfl, raw, limits, compared, numeric, resolved, divided, rfl⟩ :=
      (levelMap_entry fun _ _ => finite key stats _ _ named).mp found
    exact ⟨af, listed, rfl, raw, limits, compared, _, numeric, resolved, divided,
      computeLevel_worst compared limits af.direction, rfl⟩
  · rw [published, Option.bind_some, Json.get?_object] at found
    obtain ⟨stats, named, field, shown⟩ := exists_item_of_levels distinct kind found
    refine ⟨stats, named, field, ?_⟩
    rw [entry named]
    exact shown

/-- `_levels` holds the raw levels of the payload, and depends on nothing else. -/
theorem levels_exact (enveloped : Enveloped cycle.payload)
    (distinct : DistinctKeys cycle.plugin cycle.payload)
    (finite : FiniteNumbers cycle.plugin cycle.payload)
    (called : alerts.observe config cycle = some out) :
    RawLevels config cycle.plugin cycle.payload out.value ∧
      ∀ (prior : Alerts) (again : Cycle) (result : Observed), again.plugin = cycle.plugin →
        again.payload = cycle.payload → prior.observe config again = some result →
        result.value = out.value := by
  have valued := observe_value called
  refine ⟨?_, fun prior again result plugin payload recalled => ?_⟩
  · rw [withLevels] at valued
    split at valued
    · exact rawLevels_watched distinct finite valued
    · rename_i unwatched
      rw [Option.some.injEq] at valued
      rw [← valued]
      exact rawLevels_unwatched (by simpa using unwatched) enveloped
  · have revalued := observe_value recalled
    rw [plugin, payload, valued, Option.some.injEq] at revalued
    exact revalued.symm

end Call

def envelopedMounts : Cycle where
  plugin := .fs
  now := 7
  nowSys := 0
  payload := envelopeKeyed [mount "/" 95, mount "/home" 40] 2 "mnt_point"

theorem numberAt_mount {point field : String} {percent number : Float}
    (numeric : numberAt (mount point percent) field = some number) : number = percent := by
  simp only [numberAt, mount, Json.get?_object, List.lookup_cons, List.lookup_nil] at numeric
  split at numeric
  · cases numeric
  · split at numeric
    · cases numeric
      rfl
    · cases numeric

theorem envelopedMounts_levels_exact :
    ∃ out, @Alerts.observe .integers fullDisk { hostname := "h" } envelopedMounts = some out ∧
      @RawLevels .integers fullDisk .fs envelopedMounts.payload out.value := by
  have listed : items envelopedMounts.payload = [mount "/" 95, mount "/home" 40] := by
    with_unfolding_all rfl
  have distinct : @DistinctKeys .integers .fs envelopedMounts.payload := by
    intro pkField kind
    cases kind
    rw [listed]
    decide +kernel
  have finite : @FiniteNumbers .integers .fs envelopedMounts.payload := by
    intro key stats field number named numeric
    obtain ⟨member, _⟩ := named
    rw [listed, List.mem_pair] at member
    rcases member with rfl | rfl
    · rw [numberAt_mount numeric]
      decide +kernel
    · rw [numberAt_mount numeric]
      decide +kernel
  obtain ⟨out, called⟩ := Option.isSome_iff_exists.mp (show
    (@Alerts.observe .integers fullDisk { hostname := "h" } envelopedMounts).isSome = true by
      decide +kernel)
  exact ⟨out, called, (@levels_exact .integers fullDisk envelopedMounts _ out
    (envelopeKeyed_enveloped _ _ _) distinct finite called).1⟩

end GlancesRs
