import GlancesRs.Alerts.Triple

namespace GlancesRs

open Data

/-! What one pass over a payload says about one key: a key's samples, its
presence and its published levels come from the items it names. -/

variable [NumberText] {config : Config} {id : PluginId} {sk : StateKey} {payload value : Json}
variable {pkField field k : String} {key : Option String} {start : Scan} {data : List Json}

/-- The stats behind a key: the items it names, or the payload of a scalar plugin. -/
def presented (id : PluginId) (key : Option String) (payload : Json) : List Json :=
  match id.keyField with
  | none => [payload]
  | some pkField => (items payload).filter fun item => primaryKey pkField item = key

/-- No two items of a collection payload share a primary key. -/
def DistinctKeys (id : PluginId) (payload : Json) : Prop :=
  ∀ pkField, id.keyField = some pkField → ((items payload).filterMap (primaryKey pkField)).Nodup

/-- The keys of the items, in payload order; one unnamed key for a scalar plugin. -/
def itemKeys (id : PluginId) (payload : Json) : List (Option String) :=
  match id.keyField with
  | none => [none]
  | some pkField => ((items payload).filterMap (primaryKey pkField)).map some

/-- The triples of a payload, in item order and then watched-field order. -/
def watchedTriples (id : PluginId) (payload : Json) : List StateKey :=
  (itemKeys id payload).flatMap fun key => (alertFields id).map fun af => ⟨id, key, af.field⟩

def entryLevel (entry : Json) : Option String :=
  match entry.get? "level" with
  | some (.string level) => some level
  | _ => none

/-- The level a payload publishes for a field of a key. -/
def levelIn (value : Json) (key : Option String) (field : String) : Option String := do
  let levels ← value.get? "_levels"
  let levels ←
    match key with
    | none => some levels
    | some key => levels.get? key
  entryLevel (← levels.get? field)

omit [NumberText] in
theorem observations_key {o : Observation} {stats : Json}
    (member : o ∈ observations config id key stats) : o.key = key := by
  obtain ⟨af, _, found⟩ := List.mem_filterMap.mp member
  obtain ⟨_, _, rfl⟩ := Option.map_eq_some_iff.mp found
  rfl

omit [NumberText] in
theorem samplesOf_other_key {stats : Json} (different : sk.key ≠ key) :
    samplesOf id sk (observations config id key stats) = [] := by
  simp only [samplesOf, List.map_eq_nil_iff, List.filter_eq_nil_iff, decide_eq_true_eq]
  intro o member named
  subst named
  exact different (observations_key member)

omit [NumberText] in
theorem observations_order (config : Config) (id : PluginId) (key : Option String) (stats : Json) :
    ((observations config id key stats).map (Observation.stateKey id)).Sublist
      ((alertFields id).map fun af => ⟨id, key, af.field⟩) := by
  have placed : (observations config id key stats).map (Observation.stateKey id) =
      (alertFields id).filterMap fun af =>
        (levelFor config id key af stats).map fun _ => ⟨id, key, af.field⟩ := by
    rw [observations, List.map_filterMap]
    congr 1
    funext af
    rw [Option.map_map]
    rfl
  rw [placed]
  induction alertFields id with
  | nil => exact .slnil
  | cons af rest ih =>
      cases found : levelFor config id key af stats with
      | none => simpa [found] using ih.cons _
      | some level => simpa [found] using ih

theorem scan_order (config : Config) (id : PluginId) (payload : Json) :
    ((scan config id payload).observations.map (Observation.stateKey id)).Sublist
      (watchedTriples id payload) := by
  rw [scan, watchedTriples, itemKeys]
  cases id.keyField with
  | none => simpa using observations_order config id none payload
  | some pkField =>
      have passed (start : Scan) (data : List Json) :
          ((data.foldl (Scan.item config id pkField) start).observations.map
            (Observation.stateKey id)).Sublist
          (start.observations.map (Observation.stateKey id) ++
            ((data.filterMap (primaryKey pkField)).map some).flatMap fun key =>
              (alertFields id).map fun af => ⟨id, key, af.field⟩) := by
        induction data generalizing start with
        | nil => simp
        | cons item rest ih =>
            refine (ih _).trans ?_
            cases keyed : primaryKey pkField item with
            | none => simp [Scan.item, keyed]
            | some pk =>
                simp only [Scan.item, keyed, List.map_append, List.filterMap_cons_some keyed,
                  List.map_cons, List.flatMap_cons, List.append_assoc]
                exact .append_left (.append_right (observations_order config id (some pk) item) _) _
      simpa using passed {} (items payload)

theorem scan_live :
    (data.foldl (Scan.item config id pkField) start).live =
      start.live ++ data.filterMap (primaryKey pkField) := by
  induction data generalizing start with
  | nil => simp
  | cons item rest ih =>
      rw [List.foldl_cons, ih]
      cases keyed : primaryKey pkField item <;> simp [Scan.item, keyed]

theorem scan_samples :
    samplesOf id sk (data.foldl (Scan.item config id pkField) start).observations =
      samplesOf id sk start.observations ++
        (data.filter fun item => sk.key.isSome && primaryKey pkField item = sk.key).flatMap fun item =>
          samplesOf id sk (observations config id sk.key item) := by
  induction data generalizing start with
  | nil => simp
  | cons item rest ih =>
      rw [List.foldl_cons, ih]
      cases keyed : primaryKey pkField item with
      | none =>
          cases sk.key <;> simp [Scan.item, keyed]
      | some pk =>
          by_cases same : sk.key = some pk
          · simp [Scan.item, keyed, same, samplesOf_append]
          · simp [Scan.item, keyed, samplesOf_append, samplesOf_other_key same, Ne.symm same]

/-- Triples of a scalar plugin have no key, those of a collection one have one. -/
def StateKey.WellKeyed (sk : StateKey) : Prop := sk.key.isSome = sk.plugin.keyField.isSome

theorem samples_presented (keyed : sk.WellKeyed) :
    samplesOf sk.plugin sk (scan config sk.plugin payload).observations =
      (presented sk.plugin sk.key payload).flatMap fun stats =>
        samplesOf sk.plugin sk (observations config sk.plugin sk.key stats) := by
  rw [StateKey.WellKeyed] at keyed
  rw [scan, presented]
  cases kind : sk.plugin.keyField with
  | none =>
      rw [kind, Option.isSome_none, Option.isSome_eq_false_iff, Option.isNone_iff_eq_none] at keyed
      simp [keyed]
  | some pkField =>
      rw [kind, Option.isSome_some] at keyed
      simp [scan_samples, keyed]

theorem samples_miskeyed (miskeyed : ¬ sk.WellKeyed) :
    samplesOf sk.plugin sk (scan config sk.plugin payload).observations = [] := by
  rw [StateKey.WellKeyed] at miskeyed
  rw [scan]
  cases kind : sk.plugin.keyField with
  | none =>
      apply samplesOf_other_key
      intro unkeyed
      simp [kind, unkeyed] at miskeyed
  | some pkField =>
      have unkeyed : sk.key = none := by simpa [kind] using miskeyed
      simp [scan_samples, unkeyed]

theorem live_contains (kind : id.keyField = some pkField) :
    (scan config id payload).live.contains k = true ↔ presented id (some k) payload ≠ [] := by
  simp [scan, presented, kind, scan_live, List.filter_eq_nil_iff]

theorem wellKeyed_of_sample {sample : Level × Float}
    (member : sample ∈ samplesOf sk.plugin sk (scan config sk.plugin payload).observations) :
    sk.WellKeyed := by
  by_contra miskeyed
  rw [samples_miskeyed miskeyed] at member
  cases member

theorem presented_of_sample {sample : Level × Float}
    (member : sample ∈ samplesOf sk.plugin sk (scan config sk.plugin payload).observations) :
    presented sk.plugin sk.key payload ≠ [] := by
  rw [samples_presented (wellKeyed_of_sample member)] at member
  intro absent
  rw [absent] at member
  cases member

theorem remembered_of_presented {lastSeen : Option Instant} {cycle : Cycle}
    (own : cycle.plugin = sk.plugin) (present : presented sk.plugin sk.key cycle.payload ≠ []) :
    (tripleRound config lastSeen cycle sk).forget = false := by
  cases kind : sk.plugin.keyField with
  | none => simp [tripleRound, own, kind]
  | some pkField =>
      cases named : sk.key with
      | none => simp [tripleRound, named]
      | some k =>
          rw [named] at present
          have live : (scan config sk.plugin cycle.payload).live.contains k = true :=
            (live_contains kind).mpr present
          simp [tripleRound, own, kind, named, - List.contains_eq_mem, live]

theorem presented_of_remembered {lastSeen : Option Instant} {cycle : Cycle} (keyed : sk.WellKeyed)
    (own : cycle.plugin = sk.plugin)
    (remembered : (tripleRound config lastSeen cycle sk).forget = false) :
    presented sk.plugin sk.key cycle.payload ≠ [] := by
  rw [StateKey.WellKeyed] at keyed
  cases kind : sk.plugin.keyField with
  | none => simp [presented, kind]
  | some pkField =>
      obtain ⟨k, named⟩ : ∃ k, sk.key = some k :=
        Option.isSome_iff_exists.mp (by simpa [kind] using keyed)
      have live : (scan config sk.plugin cycle.payload).live.contains k = true := by
        simpa [tripleRound, own, kind, named] using remembered
      rw [named]
      exact (live_contains kind).mp live

theorem tripleRound_eq {lastSeen : Option Instant} {first second : Cycle}
    (own₁ : first.plugin = sk.plugin) (own₂ : second.plugin = sk.plugin)
    (together : first.now = second.now)
    (same : presented sk.plugin sk.key first.payload = presented sk.plugin sk.key second.payload) :
    tripleRound config lastSeen first sk = tripleRound config lastSeen second sk := by
  have sampled : samplesOf sk.plugin sk (scan config sk.plugin first.payload).observations =
      samplesOf sk.plugin sk (scan config sk.plugin second.payload).observations := by
    by_cases keyed : sk.WellKeyed
    · rw [samples_presented keyed, samples_presented keyed, same]
    · rw [samples_miskeyed keyed, samples_miskeyed keyed]
  have present : (sk.plugin.keyField.isSome &&
        !sk.key.all (scan config sk.plugin first.payload).live.contains) =
      (sk.plugin.keyField.isSome &&
        !sk.key.all (scan config sk.plugin second.payload).live.contains) := by
    cases kind : sk.plugin.keyField with
    | none => rfl
    | some pkField =>
        cases named : sk.key with
        | none => rfl
        | some k =>
            rw [named] at same
            have alike : (scan config sk.plugin first.payload).live.contains k =
                (scan config sk.plugin second.payload).live.contains k := by
              rw [Bool.eq_iff_iff, live_contains kind, live_contains kind, same]
            rw [Option.all_some, Option.all_some, alike]
  simp only [tripleRound, own₁, own₂, together, sampled, present]

section Published

omit [NumberText]

theorem levelMap_lookup (observed : List Observation) (field : String) :
    (levelMap observed).lookup field =
      ((observed.filter fun o => o.af.field = field).getLast?).map fun o =>
        levelEntry o.level o.af.prominent := by
  induction observed using List.reverseRecOn with
  | nil => rfl
  | append_singleton observed last ih =>
      have inserted : levelMap (observed ++ [last]) =
          insertMember last.af.field (levelEntry last.level last.af.prominent) (levelMap observed) := by
        simp [levelMap]
      rw [inserted, List.filter_append]
      by_cases same : last.af.field = field
      · subst same
        simp
      · simp [lookup_insertMember_of_ne (Ne.symm same), ih, same]

theorem samplesOf_observations {stats : Json} :
    samplesOf sk.plugin sk (observations config sk.plugin sk.key stats) =
      ((observations config sk.plugin sk.key stats).filter fun o => o.af.field = sk.field).map
        fun o => (o.level, o.raw) := by
  have named : ∀ o ∈ observations config sk.plugin sk.key stats,
      (decide (o.stateKey sk.plugin = sk)) = decide (o.af.field = sk.field) := by
    intro o member
    have key := observations_key member
    obtain ⟨plugin, skKey, field⟩ := sk
    simp [Observation.stateKey, key]
  rw [samplesOf, List.filter_congr named]

/-- One item has at most one sample for a triple: fields are listed once. -/
theorem samplesOf_observations_le {stats : Json} :
    (samplesOf sk.plugin sk (observations config sk.plugin sk.key stats)).length ≤ 1 := by
  rw [samplesOf_observations, List.length_map, ← List.countP_eq_length_filter]
  have listed := List.nodup_iff_count_le_one.mp (alertFields_nodup sk.plugin) sk.field
  rw [List.count, List.countP_map] at listed
  refine le_trans ?_ listed
  rw [observations, List.countP_filterMap]
  refine List.countP_mono_left fun af _ shown => ?_
  cases found : levelFor config sk.plugin sk.key af stats with
  | none => simp [found] at shown
  | some level => simpa [found] using shown

end Published

theorem presented_length_le (distinct : DistinctKeys id payload) (key : Option String)
    (keyed : key.isSome = id.keyField.isSome) : (presented id key payload).length ≤ 1 := by
  rw [presented]
  cases kind : id.keyField with
  | none => rfl
  | some pkField =>
      obtain ⟨k, rfl⟩ : ∃ k, key = some k := Option.isSome_iff_exists.mp (by simpa [kind] using keyed)
      have once := List.nodup_iff_count_le_one.mp (distinct pkField kind) k
      rw [List.count_filterMap, List.countP_eq_length_filter] at once
      simpa [beq_eq_decide] using once

theorem samples_length_le (distinct : DistinctKeys sk.plugin payload) :
    (samplesOf sk.plugin sk (scan config sk.plugin payload).observations).length ≤ 1 := by
  by_cases keyed : sk.WellKeyed
  · rw [samples_presented keyed]
    have alone := presented_length_le distinct sk.key keyed
    match presented sk.plugin sk.key payload, alone with
    | [], _ => simp
    | [stats], _ => simpa using samplesOf_observations_le
  · simp [samples_miskeyed keyed]

omit [NumberText] in
theorem levelMap_level {stats : Json} :
    ((levelMap (observations config sk.plugin sk.key stats)).lookup sk.field).bind entryLevel =
      (samplesOf sk.plugin sk (observations config sk.plugin sk.key stats)).getLast?.map
        fun sample => sample.1.asStr := by
  rw [levelMap_lookup, samplesOf_observations, List.getLast?_map, Option.map_map, Option.bind_map]
  cases (List.filter _ _).getLast? <;> rfl

def itemLevels (config : Config) (id : PluginId) (k : String) (item : Json) : Option Json :=
  if (observations config id (some k) item).isEmpty then none
  else some (.object (levelMap (observations config id (some k) item)))

/-- A key's published object is the one of the last of its items that has any level. -/
theorem scan_levels :
    (data.foldl (Scan.item config id pkField) start).levels.lookup k =
      (data.filter fun item => primaryKey pkField item = some k).foldl
        (fun published item => (itemLevels config id k item).or published) (start.levels.lookup k) := by
  induction data generalizing start with
  | nil => rfl
  | cons item rest ih =>
      rw [List.foldl_cons, ih]
      cases keyed : primaryKey pkField item with
      | none => simp [Scan.item, keyed]
      | some pk =>
          have inserted : (Scan.item config id pkField start item).levels.lookup k =
              if pk = k then (itemLevels config id k item).or (start.levels.lookup k)
              else start.levels.lookup k := by
            by_cases same : pk = k
            · subst same
              by_cases empty : (observations config id (some pk) item).isEmpty = true <;>
                simp only [Scan.item, keyed, itemLevels, empty, if_true, Bool.false_eq_true, if_false,
                  Option.none_or, Option.some_or, lookup_insertMember_self]
            · by_cases empty : (observations config id (some pk) item).isEmpty = true <;>
                simp only [Scan.item, keyed, empty, if_true, Bool.false_eq_true, if_false, same,
                  lookup_insertMember_of_ne (Ne.symm same)]
          by_cases same : pk = k <;> simp [inserted, keyed, same]

/-- A key with published levels is that of an item. -/
theorem exists_item_of_published {levels : Json} (kind : id.keyField = some pkField)
    (published : (scan config id payload).levels.lookup k = some levels) :
    ∃ item ∈ items payload, primaryKey pkField item = some k := by
  rw [scan] at published
  simp only [kind, scan_levels, List.lookup_nil] at published
  cases named : (items payload).filter fun item => primaryKey pkField item = some k with
  | nil => simp [named] at published
  | cons item rest =>
      have member : item ∈ (items payload).filter fun item => primaryKey pkField item = some k := by
        simp [named]
      obtain ⟨inside, keyed⟩ := List.mem_filter.mp member
      exact ⟨item, inside, of_decide_eq_true keyed⟩

/-- With distinct keys the published levels of a key are those of its one item. -/
theorem levels_of_item {item : Json} (distinct : DistinctKeys id payload)
    (kind : id.keyField = some pkField) (inside : item ∈ items payload)
    (keyed : primaryKey pkField item = some k) :
    (scan config id payload).levels.lookup k = itemLevels config id k item := by
  have alone := presented_length_le distinct (some k) (by simp [kind])
  simp only [presented, kind] at alone
  have member : item ∈ (items payload).filter fun item => primaryKey pkField item = some k :=
    List.mem_filter.mpr ⟨inside, decide_eq_true keyed⟩
  obtain ⟨only, single⟩ := List.length_eq_one_iff.mp
    (Nat.le_antisymm alone (List.length_pos_of_mem member))
  rw [single] at member
  obtain rfl := List.mem_singleton.mp member
  simp only [scan, kind, scan_levels, List.lookup_nil, single, List.foldl_cons, List.foldl_nil,
    Option.or_none]

omit [NumberText] in
theorem itemLevels_level {item : Json} (named : sk.key = some k) :
    ((itemLevels config sk.plugin k item).bind fun levels => levels.get? sk.field).bind entryLevel =
      (samplesOf sk.plugin sk (observations config sk.plugin sk.key item)).getLast?.map
        fun sample => sample.1.asStr := by
  rw [← levelMap_level, named, itemLevels]
  by_cases empty : (observations config sk.plugin (some k) item).isEmpty = true
  · simp [List.isEmpty_iff.mp empty, levelMap]
  · simp only [empty, Bool.false_eq_true, if_false, Option.bind_some, Json.get?_object]

/-- The published level of a triple is the level it was sampled at. -/
theorem levelIn_eq (keyed : sk.WellKeyed) (distinct : DistinctKeys sk.plugin payload)
    (published : value.get? "_levels" = some (.object (scan config sk.plugin payload).levels)) :
    levelIn value sk.key sk.field =
      (samplesOf sk.plugin sk (scan config sk.plugin payload).observations).getLast?.map
        fun sample => sample.1.asStr := by
  have alone := presented_length_le distinct sk.key keyed
  rw [samples_presented keyed]
  rw [StateKey.WellKeyed] at keyed
  rw [levelIn, scan] at *
  cases kind : sk.plugin.keyField with
  | none =>
      obtain unkeyed : sk.key = none := by simpa [kind] using keyed
      have level := @levelMap_level config sk payload
      rw [unkeyed] at level
      simp only [published, kind, unkeyed, presented, List.flatMap_singleton]
      exact level
  | some pkField =>
      obtain ⟨k, named⟩ : ∃ k, sk.key = some k :=
        Option.isSome_iff_exists.mp (by simpa [kind] using keyed)
      simp only [presented, kind, named] at alone
      simp only [published, kind, named, presented, Option.bind_eq_bind, Option.bind_some,
        Json.get?_object, scan_levels, List.lookup_nil]
      match (items payload).filter fun item => primaryKey pkField item = some k, alone with
      | [], _ => rfl
      | [item], _ =>
          rw [List.foldl_cons, List.foldl_nil, Option.or_none, ← named]
          simpa [Option.bind_assoc] using @itemLevels_level config sk k item named

end GlancesRs
