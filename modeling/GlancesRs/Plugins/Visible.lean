import GlancesRs.Alerts.Observe
import GlancesRs.Plugins.Diskio
import GlancesRs.Plugins.Fs
import GlancesRs.Plugins.Network

namespace GlancesRs

open Data

/-! Which items the lists of a configuration let through, and that the collection
plugins built from it collect no others. -/

variable {crates : Crates} {isMatch : crates.Regex → String → Bool} {config : Config}
variable {id : PluginId} {key : String} {payload : Json}

/-- What a collection plugin hides where `hide` is not configured. -/
def defaultHide : PluginId → List String
  | .diskio => ["loop.*", "/dev/loop.*"]
  | .fs => ["/boot.*", ".*/snap.*"]
  | .network => ["docker.*", "lo"]
  | _ => []

/-- A pattern of the configuration matches a key. -/
def Matches (crates : Crates) (isMatch : crates.Regex → String → Bool) (key pattern : String) : Prop :=
  ∃ regex, crates.regexNew pattern = .ok regex ∧ isMatch regex key = true

/-- An item that passes the lists: some `show` pattern matches, if there is one, and no
`hide` pattern does. -/
structure Visible (crates : Crates) (isMatch : crates.Regex → String → Bool) (config : Config)
    (id : PluginId) (key : String) : Prop where
  shows : ∀ settings, config.plugins.lookup id.asStr = some settings →
    settings.show = [] ∨ ∃ pattern ∈ settings.show, Matches crates isMatch key pattern
  hides : ∀ settings, config.plugins.lookup id.asStr = some settings →
    ∀ pattern ∈ settings.hide, ¬ Matches crates isMatch key pattern
  defaults : (∀ settings, config.plugins.lookup id.asStr = some settings → settings.hide = []) →
    ∀ pattern ∈ defaultHide id, ¬ Matches crates isMatch key pattern

/-- What a collection plugin built from the configuration can return; a scalar plugin
has no items, and anything goes. -/
inductive CollectedBy (crates : Crates) (isMatch : crates.Regex → String → Bool) (config : Config) :
    PluginId → Json → Prop where
  | network {plugin : CollectionPlugin crates} {cycles : List (SampleCycle Network.Tables)}
      {cycle : SampleCycle Network.Tables} (built : NetworkPlugin.new crates config = some plugin) :
      CollectedBy crates isMatch config .network
        ((NetworkPlugin.sampler isMatch plugin).published cycles cycle)
  | diskio {plugin : CollectionPlugin crates}
      {cycles : List (SampleCycle (Option (HashMap String DiskIoCounters)))}
      {cycle : SampleCycle (Option (HashMap String DiskIoCounters))}
      (built : DiskioPlugin.new crates config = some plugin) :
      CollectedBy crates isMatch config .diskio
        ((DiskioPlugin.sampler isMatch plugin).published cycles cycle)
  | fs {plugin : CollectionPlugin crates} {clock : TickClock} {now : Instant} {tables : Fs.Tables}
      (built : FsPlugin.new crates config = some plugin) :
      CollectedBy crates isMatch config .fs (FsPlugin.collect isMatch plugin clock now tables).2
  | scalar {other : PluginId} {payload : Json} (unkeyed : other.keyField = none) :
      CollectedBy crates isMatch config other payload

/-- All items of a payload of a collection, and all its levels, have a key that `visible`
holds of. -/
structure ShowsOnly (visible : String → Prop) (id : PluginId) (payload : Json) : Prop where
  items : ∀ pkField, id.keyField = some pkField → ∀ item ∈ GlancesRs.items payload,
    ∃ name, item.get? pkField = some (.string name) ∧ visible name
  levels : id.keyField.isSome = true → ∀ levels, payload.get? "_levels" = some (.object levels) →
    ∀ name entry, (name, entry) ∈ levels → visible name

section Filters

variable {regexes : List crates.Regex} {patterns : List String}

theorem any_matches (compiled : patterns.mapM (fun pattern => (crates.regexNew pattern).toOption) =
    some regexes) :
    (regexes.any fun regex => isMatch regex key) = true ↔
      ∃ pattern ∈ patterns, Matches crates isMatch key pattern := by
  induction patterns generalizing regexes with
  | nil =>
      cases compiled
      simp
  | cons pattern rest ih =>
      simp only [List.mapM_cons, Option.bind_eq_bind, Option.bind_eq_some_iff, Option.pure_def,
        Option.some.injEq] at compiled
      obtain ⟨regex, made, tail, compiled, rfl⟩ := compiled
      cases ended : crates.regexNew pattern with
      | error reason =>
          rw [ended] at made
          cases made
      | ok other =>
          rw [ended] at made
          cases made
          simp [Matches, ended, ih compiled]

theorem isEmpty_compiled (compiled : patterns.mapM (fun pattern => (crates.regexNew pattern).toOption) =
    some regexes) : regexes.isEmpty = true ↔ patterns = [] := by
  cases patterns with
  | nil =>
      cases compiled
      simp
  | cons pattern rest =>
      simp only [List.mapM_cons, Option.bind_eq_bind, Option.bind_eq_some_iff, Option.pure_def,
        Option.some.injEq] at compiled
      obtain ⟨regex, _, tail, _, rfl⟩ := compiled
      simp

/-- The filter of a plugin built from the configuration shows what its lists let through. -/
theorem CollectionPlugin.shown_iff {plugin : CollectionPlugin crates}
    (built : CollectionPlugin.new crates id (defaultHide id) config = some plugin) :
    plugin.filter.shown isMatch key = true ↔ Visible crates isMatch config id key := by
  simp only [CollectionPlugin.new, KeyFilter.new, Option.bind_eq_bind, Option.pure_def,
    Option.bind_eq_some_iff, Option.some.injEq] at built
  obtain ⟨refresh, _, filter, ⟨shows, showed, hides, hid, rfl⟩, rfl⟩ := built
  simp only [KeyFilter.shown, Bool.and_eq_true, Bool.or_eq_true, Bool.not_eq_true',
    ← Bool.not_eq_true, any_matches showed, any_matches hid, isEmpty_compiled showed, not_exists, not_and]
  cases found : config.plugins.lookup id.asStr with
  | none =>
      simp only [Option.map_none, Option.getD_none, hideOrDefault, List.isEmpty_nil, if_true, true_or,
        true_and]
      exact ⟨fun unmatched => ⟨by simp [found], by simp [found], fun _ => unmatched⟩,
        fun visible => visible.defaults (by simp [found])⟩
  | some settings =>
      simp only [Option.map_some, Option.getD_some]
      constructor
      · intro both
        refine ⟨fun other same => ?_, fun other same pattern inside => ?_, fun unset => ?_⟩
        · rw [found] at same
          cases same
          exact both.1
        · rw [found] at same
          cases same
          refine both.2 pattern ?_
          rwa [hideOrDefault, if_neg]
          simpa using List.ne_nil_of_mem inside
        · have none_hidden := unset settings found
          rw [none_hidden] at both
          exact both.2
      · intro visible
        refine ⟨visible.shows settings found, ?_⟩
        rw [hideOrDefault]
        split
        · rename_i none_hidden
          refine visible.defaults fun other same => ?_
          rw [found] at same
          cases same
          simpa using none_hidden
        · exact visible.hides settings found

end Filters

section Collects

variable {visible : String → Prop} {pkField name : String} {listing : List Json} {elapsed : Float}

theorem showsOnly_envelopeKeyed (keyed : id.keyField = some pkField)
    (named : ∀ item ∈ listing, ∃ name, item.get? pkField = some (.string name) ∧ visible name) :
    ShowsOnly visible id (envelopeKeyed listing elapsed pkField) where
  items other same := by
    rw [keyed] at same
    cases same
    simpa only [items, envelopeKeyed_data, Option.bind_some, Json.asArray?, Option.getD_some] using named
  levels _ levels published := by
    rw [show (envelopeKeyed listing elapsed pkField).get? "_levels" = some (.object []) from rfl] at published
    cases published
    simp

/-- What a rate step lists is named by the current sample, which is filtered. -/
theorem showsOnly_collectItems {ρ κ : Type} {sample : ρ → HashMap String κ}
    {step : ρ → HashMap String κ → HashMap String κ → Float → List Json × HashMap String κ}
    (keyed : id.keyField = some pkField)
    (named : ∀ reading previous current elapsed, ∀ item ∈ (step reading previous current elapsed).1,
      ∃ name value, current.lookup name = some value ∧ item.get? pkField = some (.string name))
    (filtered : ∀ reading name value, (sample reading).lookup name = some value → visible name)
    (state : ItemState κ) (cycle : SampleCycle ρ) :
    ShowsOnly visible id (collectItems pkField sample step state cycle).2 := by
  refine showsOnly_envelopeKeyed keyed fun item listed => ?_
  obtain ⟨name, value, found, at_⟩ := named _ _ _ _ item listed
  exact ⟨name, at_, filtered _ name value found⟩

theorem visible_of_sampled {κ β : Type} {plugin : CollectionPlugin crates}
    (built : CollectionPlugin.new crates id (defaultHide id) config = some plugin)
    {table : HashMap String β} {counters : String → β → κ} {value : κ}
    (kept : (table.filterMap fun name held =>
      if plugin.filter.shown isMatch name then some (counters name held) else none).lookup name =
        some value) : Visible crates isMatch config id name := by
  rw [AList.lookup_filterMap] at kept
  obtain ⟨held, _, passed⟩ := Option.bind_eq_some_iff.mp kept
  split at passed
  · rename_i shown
    exact (CollectionPlugin.shown_iff built).mp shown
  · cases passed

/-- No plugin built from the configuration collects an item its lists hide. -/
theorem CollectedBy.showsOnly (collected : CollectedBy crates isMatch config id payload) :
    ShowsOnly (Visible crates isMatch config id) id payload := by
  cases collected with
  | @network plugin cycles cycle built =>
      rw [Sampler.published]
      change ShowsOnly _ _ (NetworkPlugin.collect isMatch plugin _ cycle).2
      refine showsOnly_collectItems rfl (fun _ _ _ _ item listed => ?_)
        (fun _ _ _ kept => visible_of_sampled built kept) _ cycle
      obtain ⟨name, prev, cur, _, found, rfl⟩ := mem_stepItems.mp listed
      exact ⟨name, cur, found, Network.item_key⟩
  | @diskio plugin cycles cycle built =>
      rw [Sampler.published]
      change ShowsOnly _ _ (DiskioPlugin.collect isMatch plugin _ cycle).2
      refine showsOnly_collectItems rfl (fun _ _ _ _ item listed => ?_)
        (fun _ _ _ kept => @visible_of_sampled _ _ _ _ _ _ _ _ built _ (fun _ held => held) _ kept) _ cycle
      obtain ⟨name, prev, cur, _, found, rfl⟩ := mem_stepItems.mp listed
      exact ⟨name, cur, found, Diskio.item_key⟩
  | @fs plugin clock now tables built =>
      refine showsOnly_envelopeKeyed rfl fun item listed => ?_
      rw [sortItems, List.mem_insertionSort] at listed
      obtain ⟨disk, _, shown⟩ := List.mem_filterMap.mp listed
      dsimp only at shown
      split at shown
      · rename_i passed
        cases shown
        exact ⟨_, Fs.item_key, (CollectionPlugin.shown_iff built).mp passed⟩
      · cases shown
  | scalar unkeyed => exact ⟨by simp [unkeyed], by simp [unkeyed]⟩

end Collects

end GlancesRs
