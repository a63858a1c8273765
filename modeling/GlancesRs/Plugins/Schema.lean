import GlancesRs.Alerts.Levels
import GlancesRs.Data.FloatBounds
import GlancesRs.Plugins.Collection
import GlancesRs.Plugins.Fields

namespace GlancesRs

open Data

/-! The schema the `info` routes serve, as a property of payloads: every
statistic is a documented field and its value is of the kind the field's unit
names. -/

/-- A number, not below zero. -/
def Data.Json.Counts (value : Json) : Prop :=
  ∃ number bound, value = .number number ∧ number.asF64.Within bound

/-- The values a unit stands for. -/
def FieldUnit.Admits : FieldUnit → Json → Prop
  | .stringT, value => ∃ text, value = .string text
  | .bool, value => ∃ flag, value = .bool flag
  | .percent, value => ∃ number : Float, value = .number (.float number) ∧ number.Within 100
  | .bytes, value => ∃ count, value = .ofU64 count
  | .bitPerSec, value => ∃ count, value = .ofU64 count
  | .seconds, value => ∃ count, value = .ofU64 count
  | .bytesPerSec, value => value.Counts
  | .number, value => value.Counts
  | .float, value => value.Counts

def fieldUnit (id : PluginId) (name : String) : Option FieldUnit :=
  ((fields id).find? fun info => info.field = name).map FieldInfo.unit

/-- A field of the schema with a value of its unit. Only `guest` of the CPU, a percentage
that is not held to the total it is taken of, can be any number that is not negative. -/
def Known (id : PluginId) (name : String) (value : Json) : Prop :=
  ∃ unit, fieldUnit id name = some unit ∧
    (unit.Admits value ∨ (id = .cpu ∧ name = "guest" ∧ value.Counts))

structure Documented (id : PluginId) (stats : List (String × Json)) : Prop where
  sorted : SortedMembers stats
  known : ∀ name value, (name, value) ∈ stats → Known id name value

/-- Levels of watched fields that have a number among the statistics. -/
structure Leveled (id : PluginId) (stats levels : List (String × Json)) : Prop where
  sorted : SortedMembers levels
  watched : ∀ name entry, (name, entry) ∈ levels → ∃ info ∈ alertFields id, ∃ level number,
    info.field = name ∧ entry = levelEntry level info.prominent ∧
      stats.lookup name = some (.number number)

/-- The items of a collection: documented objects in the order of their keys. -/
structure Listed (id : PluginId) (pkField : String) (items : List Json) : Prop where
  objects : ∀ item ∈ items, ∃ stats pk, item = .object stats ∧ Documented id stats ∧
    stats.lookup pkField = some (.string pk)
  ordered : items.Pairwise fun left right => keyLe (itemKey pkField left) (itemKey pkField right)

/-- The levels of a collection: by primary key, those of an item. -/
structure ItemsLeveled (id : PluginId) (pkField : String) (items : List Json)
    (levels : List (String × Json)) : Prop where
  sorted : SortedMembers levels
  items : ∀ pk entry, (pk, entry) ∈ levels → ∃ stats inner, .object stats ∈ items ∧
    stats.lookup pkField = some (.string pk) ∧ entry = .object inner ∧ Leveled id stats inner

/-- What a plugin publishes: its statistics, or its items under `data`, in the
envelope with their levels. -/
inductive Conforms (id : PluginId) : Json → Prop
  | scalar {stats levels : List (String × Json)} {seconds : Float} {bound : ℚ}
      (unkeyed : id.keyField = none) (documented : Documented id stats)
      (leveled : Leveled id stats levels) (measured : seconds.Within bound) :
      Conforms id (.object (insertMember "_levels" (.object levels)
        (insertMember "time_since_update" (.number (.float seconds)) stats)))
  | collection {pkField : String} {items : List Json} {levels : List (String × Json)}
      {seconds : Float} {bound : ℚ} (keyed : id.keyField = some pkField)
      (listed : Listed id pkField items) (leveled : ItemsLeveled id pkField items levels)
      (measured : seconds.Within bound) :
      Conforms id (.object [("_key", .string pkField), ("_levels", .object levels),
        ("data", .array items), ("time_since_update", .number (.float seconds))])

/-- The fields that are there whenever the system could be read; an alias is where
one is configured, mount options where the mount table lists the mount point. -/
def requiredFields (id : PluginId) : List String :=
  ((fields id).map FieldInfo.field).filter fun name => name ≠ "alias" ∧ name ≠ "options"

def Covered (id : PluginId) (stats : List (String × Json)) : Prop :=
  ∀ name ∈ requiredFields id, name ∈ stats.map Prod.fst

section Rules

variable {id : PluginId} {stats : List (String × Json)} {name : String} {value : Json}
variable {x : Float} {bound : ℚ}

theorem Known.text (unit : fieldUnit id name = some .stringT) (text : String) :
    Known id name (.string text) := ⟨_, unit, .inl ⟨text, rfl⟩⟩

theorem Known.flag (unit : fieldUnit id name = some .bool) (flag : Bool) :
    Known id name (.bool flag) := ⟨_, unit, .inl ⟨flag, rfl⟩⟩

theorem Data.Json.ofF64_within (within : x.Within bound) : Json.ofF64 x = .number (.float x) := by
  rw [ofF64, if_pos within.isFinite]

theorem Data.Json.ofF64_counts (within : x.Within bound) : (Json.ofF64 x).Counts :=
  ⟨.float x, bound, ofF64_within within, within⟩

theorem Data.Json.ofU64_counts (count : UInt64) : (Json.ofU64 count).Counts :=
  ⟨.posInt count, 2 ^ 64, rfl, Float.within_toFloat_max count⟩

theorem Known.percent (unit : fieldUnit id name = some .percent) (within : x.Within 100) :
    Known id name (.ofF64 x) := ⟨_, unit, .inl ⟨x, Json.ofF64_within within, within⟩⟩

theorem Known.guest (within : x.Within bound) : Known .cpu "guest" (.ofF64 x) :=
  ⟨.percent, rfl, .inr ⟨rfl, rfl, Json.ofF64_counts within⟩⟩

/-- An unsigned integer is a value of every numeric unit but the percentage. -/
theorem Known.count {unit : FieldUnit} (found : fieldUnit id name = some unit)
    (numeric : unit ≠ .stringT ∧ unit ≠ .bool ∧ unit ≠ .percent) (count : UInt64) :
    Known id name (.ofU64 count) := by
  refine ⟨unit, found, .inl ?_⟩
  cases unit with
  | stringT | bool | percent => simp at numeric
  | bytes | bitPerSec | seconds => exact ⟨count, rfl⟩
  | bytesPerSec | number | float => exact Json.ofU64_counts count

theorem Known.measure {unit : FieldUnit} (found : fieldUnit id name = some unit)
    (measured : unit = .bytesPerSec ∨ unit = .number ∨ unit = .float) (within : x.Within bound) :
    Known id name (.ofF64 x) := by
  refine ⟨unit, found, .inl ?_⟩
  rcases measured with rfl | rfl | rfl <;> exact Json.ofF64_counts within

theorem Documented.insertMember (documented : Documented id stats) (known : Known id name value) :
    Documented id (insertMember name value stats) where
  sorted := documented.sorted.insertMember name value
  known other held inside := by
    rcases mem_insertMember inside with same | old
    · cases same
      exact known
    · exact documented.known other held old

theorem Documented.insertSome {value : Option Json} (documented : Documented id stats)
    (known : ∀ held ∈ value, Known id name held) : Documented id (insertSome name value stats) := by
  cases value with
  | none => exact documented
  | some held => exact documented.insertMember (known held rfl)

theorem documented_jsonMembers (known : stats.Forall fun entry => Known id entry.1 entry.2) :
    Documented id (jsonMembers stats) := by
  rw [List.forall_iff_forall_mem] at known
  rw [jsonMembers, overlayMembers]
  induction stats with
  | nil => exact ⟨List.Pairwise.nil, fun _ _ inside => by cases inside⟩
  | cons entry rest ih =>
      rw [List.foldr_cons]
      exact (ih fun other inside => known other (List.mem_cons_of_mem _ inside)).insertMember
        (known entry List.mem_cons_self)

theorem mem_names_insertMember {other : String} :
    other ∈ (insertMember name value stats).map Prod.fst ↔
      other = name ∨ other ∈ stats.map Prod.fst := by
  induction stats with
  | nil => simp [Data.insertMember]
  | cons entry rest ih =>
      obtain ⟨first, held⟩ := entry
      simp only [Data.insertMember]
      split
      · simp
      · split
        · rename_i same
          simp [same]
        · rw [List.map_cons, List.mem_cons, ih, List.map_cons, List.mem_cons]
          exact or_left_comm

theorem mem_names_insertSome {value : Option Json} {other : String}
    (inside : other ∈ stats.map Prod.fst) :
    other ∈ (insertSome name value stats).map Prod.fst := by
  cases value with
  | none => exact inside
  | some value => exact mem_names_insertMember.mpr (.inr inside)

theorem names_jsonMembers {other : String} :
    other ∈ (jsonMembers stats).map Prod.fst ↔ other ∈ stats.map Prod.fst := by
  rw [jsonMembers, overlayMembers]
  induction stats with
  | nil => rfl
  | cons entry rest ih =>
      rw [List.foldr_cons, mem_names_insertMember, ih, List.map_cons, List.mem_cons]

end Rules

end GlancesRs
