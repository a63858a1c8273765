import GlancesRs.Alerts.Scan
import GlancesRs.Config.Validated
import GlancesRs.Data.Clock
import GlancesRs.Plugins.Diskio
import GlancesRs.Plugins.Fs
import GlancesRs.Plugins.Network

namespace GlancesRs

open Data

/-! Primary keys of collection payloads. The alerts keep one state entry under a
key, so a payload must not name two items by it. -/

section Keyed

variable [NumberText] {config : Config} {id : PluginId} {payload : Json} {pkField : String}

/-- The items are in strictly ascending order of their keys, and no pass over the
payload samples a triple twice. -/
structure KeyedOnce (id : PluginId) (payload : Json) : Prop where
  ascending : ∀ pkField, id.keyField = some pkField → Ascending pkField (items payload)
  observed : ∀ config,
    ((scan config id payload).observations.map (Observation.stateKey id)).Nodup

theorem primaryKey_of_itemKey {item : Json} {name : String}
    (keyed : itemKey pkField item = some name) : primaryKey pkField item = some name := by
  rw [itemKey, Option.bind_eq_some_iff] at keyed
  obtain ⟨value, found, text⟩ := keyed
  cases value with
  | string other =>
      cases text
      rw [primaryKey, found]
      rfl
  | null | bool | number | array | object => cases text

theorem Ascending.distinctKeys (kind : id.keyField = some pkField)
    (ascending : Ascending pkField (items payload)) : DistinctKeys id payload := by
  intro other same
  rw [kind, Option.some.injEq] at same
  subst same
  obtain ⟨names, keyed, strict⟩ := ascending
  have named : (items payload).filterMap (primaryKey pkField) = names := by
    have agree : ∀ item ∈ items payload, primaryKey pkField item = itemKey pkField item := by
      intro item inside
      have listed := List.mem_map_of_mem (f := itemKey pkField) inside
      rw [keyed, List.mem_map] at listed
      obtain ⟨name, _, key⟩ := listed
      rw [← key]
      exact primaryKey_of_itemKey key.symm
    rw [List.filterMap_congr agree]
    have read := congrArg (List.filterMap fun key => key) keyed
    simpa [List.filterMap_map, Function.comp_def] using read
  rw [named]
  exact strict.imp ne_of_lt

theorem DistinctKeys.observed_once (distinct : DistinctKeys id payload) :
    ((scan config id payload).observations.map (Observation.stateKey id)).Nodup := by
  rw [List.nodup_iff_count_le_one]
  intro sk
  by_cases own : sk.plugin = id
  · subst own
    have once := @samples_length_le _ config sk payload distinct
    rw [samplesOf, List.length_map, ← List.countP_eq_length_filter] at once
    rw [List.count, List.countP_map]
    simpa [Function.comp_def, beq_eq_decide] using once
  · rw [List.count_eq_zero_of_not_mem]
    · exact Nat.zero_le 1
    · intro listed
      obtain ⟨o, _, rfl⟩ := List.mem_map.mp listed
      exact own rfl

theorem KeyedOnce.of_ascending (kind : id.keyField = some pkField)
    (ascending : Ascending pkField (items payload)) : KeyedOnce id payload := by
  constructor
  · intro other same
    rw [kind, Option.some.injEq] at same
    exact same ▸ ascending
  · intro config
    exact (ascending.distinctKeys kind).observed_once

end Keyed

theorem items_envelopeKeyed (data : List Json) (timeSinceUpdate : Float) (key : String) :
    items (envelopeKeyed data timeSinceUpdate key) = data := by
  rw [items, envelopeKeyed_data]
  rfl

section Collections

variable [NumberText] {crates : Crates} (isMatch : crates.Regex → String → Bool)
variable (plugin : CollectionPlugin crates)

theorem network_keyedOnce (state : NetworkState) (cycle : SampleCycle Network.Tables) :
    KeyedOnce .network (NetworkPlugin.collect isMatch plugin state cycle).2 := by
  apply KeyedOnce.of_ascending rfl
  rw [NetworkPlugin.collect, collectItems, items_envelopeKeyed]
  exact stepItems_ascending fun _ _ _ => Network.item_key

theorem diskio_keyedOnce (state : DiskioState)
    (cycle : SampleCycle (Option (HashMap String DiskIoCounters))) :
    KeyedOnce .diskio (DiskioPlugin.collect isMatch plugin state cycle).2 := by
  apply KeyedOnce.of_ascending rfl
  rw [DiskioPlugin.collect, collectItems, items_envelopeKeyed]
  exact stepItems_ascending fun _ _ _ => Diskio.item_key

theorem fs_keyedOnce_iff (clock : TickClock) (now : Instant) (tables : Fs.Tables) :
    KeyedOnce .fs (FsPlugin.collect isMatch plugin clock now tables).2 ↔
      (FsPlugin.shownMounts isMatch plugin tables).Nodup := by
  have data : items (FsPlugin.collect isMatch plugin clock now tables).2 =
      sortItems "mnt_point" (FsPlugin.listed isMatch plugin tables) :=
    items_envelopeKeyed _ _ _
  rw [← sortItems_ascending_iff (FsPlugin.listed_keys isMatch plugin), ← data]
  constructor
  · intro once
    exact once.ascending "mnt_point" rfl
  · intro ascending
    exact .of_ascending rfl ascending

/-- What the operating system lists decides for `fs`: its items come from a list,
those of the other two from a map. -/
theorem keyedOnce_iff :
    (∀ state cycle, KeyedOnce .network (NetworkPlugin.collect isMatch plugin state cycle).2) ∧
    (∀ state cycle, KeyedOnce .diskio (DiskioPlugin.collect isMatch plugin state cycle).2) ∧
    ∀ clock now tables,
      KeyedOnce .fs (FsPlugin.collect isMatch plugin clock now tables).2 ↔
        (FsPlugin.shownMounts isMatch plugin tables).Nodup :=
  ⟨network_keyedOnce isMatch plugin, diskio_keyedOnce isMatch plugin,
    fs_keyedOnce_iff isMatch plugin⟩

end Collections

def unfilteredMounts : CollectionPlugin (.ofDocument "" {}) where
  refresh := .fromMillis 2000
  filter := { «show» := [], hide := [] }
  «alias» := ∅

/-- Two devices mounted at one path, the second over the first. The kernel lists both,
and `statvfs` sees the one on top, 95 percent full. -/
def overMounted : Fs.Tables where
  disks :=
    [ { name := utf8Bytes "/dev/sdb1".toList, fileSystem := utf8Bytes "ext4".toList,
        mountPoint := utf8Bytes "/data".toList, totalSpace := 409600, availableSpace := 20480 },
      { name := utf8Bytes "/dev/sdc1".toList, fileSystem := utf8Bytes "ext4".toList,
        mountPoint := utf8Bytes "/data".toList, totalSpace := 409600, availableSpace := 20480 } ]
  statvfs mount :=
    if mount = "/data" then some { fFrsize := 4096, fBlocks := 100, fBfree := 5, fBavail := 5 }
    else none
  mountOptions := .collect [("/data", "rw,relatime")]

/-- Both are items under one key with the same figures, and each cycle samples the
triple twice. -/
theorem overMounted_not_keyedOnce :
    let payload := (FsPlugin.collect (fun _ _ => false) unfilteredMounts {} 0 overMounted).2
    (items payload).map (itemKey "mnt_point") = [some "/data", some "/data"] ∧
      (@scan .integers { alerts := { useBuiltinDefaults := true } } .fs payload).observations.map
          (fun o => (o.stateKey .fs, o.level)) =
        [(⟨.fs, some "/data", "percent"⟩, .critical),
          (⟨.fs, some "/data", "percent"⟩, .critical)] ∧
      ¬ @KeyedOnce .integers .fs payload := by
  intro payload
  refine ⟨by decide +kernel, by decide +kernel, fun once => ?_⟩
  have distinct := (@fs_keyedOnce_iff .integers _ _ _ _ _ _).mp once
  revert distinct
  decide +kernel

end GlancesRs
