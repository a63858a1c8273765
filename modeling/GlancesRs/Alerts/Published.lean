import GlancesRs.Alerts.RawLevels
import GlancesRs.Plugins.Conformance

namespace GlancesRs

open Data

/-! What a cycle publishes once it has been observed: the payload with the levels
of its own watched fields, and conforming to the schema as the payload did. -/

variable {config : Config} {id : PluginId} {key : Option String} {pkField : String}
variable {stats levels : List (String × Json)} {payload published item : Json} {listing : List Json}

section Levels

theorem asF64?_eq_some {value : Json} {x : Float} (read : value.asF64? = some x) :
    ∃ number, value = .number number := by
  cases value with
  | number number => exact ⟨number, rfl⟩
  | _ => cases read

theorem levelMap_sorted (observed : List Observation) : SortedMembers (levelMap observed) := by
  rw [levelMap]
  induction observed using List.reverseRecOn with
  | nil => exact List.Pairwise.nil
  | append_singleton observed last ih =>
      rw [List.foldl_append]
      exact ih.insertMember _ _

/-- The level of a field comes from a number under its name. -/
theorem levelMap_leveled {value : Json} (inside : ∀ name, name ∈ (alertFields id).map FieldInfo.field →
      value.get? name = stats.lookup name) :
    Leveled id stats (levelMap (observations config id key value)) where
  sorted := levelMap_sorted _
  watched name entry listed := by
    rw [← (levelMap_sorted _).lookup_eq_some, levelMap_lookup] at listed
    obtain ⟨o, last, rfl⟩ := Option.map_eq_some_iff.mp listed
    obtain ⟨observed, named⟩ := List.mem_filter.mp (List.mem_of_getLast? last)
    obtain ⟨af, watched, leveled⟩ := List.mem_filterMap.mp observed
    obtain ⟨⟨level, raw⟩, found, rfl⟩ := Option.map_eq_some_iff.mp leveled
    obtain ⟨number, read, _⟩ := Option.bind_eq_some_iff.mp found
    obtain ⟨held, there, float⟩ := Option.bind_eq_some_iff.mp read
    obtain ⟨number, rfl⟩ := asF64?_eq_some float
    obtain rfl : af.field = name := by simpa using named
    refine ⟨af, watched, level, number, rfl, rfl, ?_⟩
    rw [← inside af.field (List.mem_map_of_mem watched), there]

theorem alertFields_plain : ∀ name ∈ (alertFields id).map FieldInfo.field,
    name ≠ "time_since_update" ∧ name ≠ "_levels" := by
  cases id <;> decide +kernel

variable [NumberText]

theorem scan_items (keyed : id.keyField = some pkField) (data : items payload = listing) :
    (scan config id payload).levels =
      (listing.foldl (Scan.item config id pkField) {}).levels := by
  rw [scan, keyed, data]

/-- The pass over the items keeps the levels sorted, each from an item it has seen. -/
theorem foldl_itemsLeveled (objects : ∀ item ∈ listing, ∃ stats pk, item = .object stats ∧
      Documented id stats ∧ stats.lookup pkField = some (.string pk)) :
    ItemsLeveled id pkField listing (listing.foldl (Scan.item config id pkField) {}).levels := by
  induction listing using List.reverseRecOn with
  | nil => exact ⟨List.Pairwise.nil, fun _ _ listed => by cases listed⟩
  | append_singleton listing last ih =>
      rw [List.foldl_append, List.foldl_cons, List.foldl_nil]
      obtain ⟨sorted, former⟩ := ih fun item inside => objects item (List.mem_append_left _ inside)
      have kept : ∀ pk entry,
          (pk, entry) ∈ (listing.foldl (Scan.item config id pkField) {}).levels →
          ∃ stats inner, .object stats ∈ listing ++ [last] ∧
            stats.lookup pkField = some (.string pk) ∧ entry = .object inner ∧
            Leveled id stats inner := by
        intro pk entry listed
        obtain ⟨stats, inner, inside, rest⟩ := former pk entry listed
        exact ⟨stats, inner, List.mem_append_left _ inside, rest⟩
      obtain ⟨stats, pk, rfl, _, named⟩ := objects last (by simp)
      have keyed : primaryKey pkField (.object stats) = some pk := by
        simp [primaryKey, named, jsonKey]
      simp only [Scan.item, keyed]
      split
      · exact ⟨sorted, kept⟩
      · refine ⟨sorted.insertMember _ _, fun other entry listed => ?_⟩
        rcases mem_insertMember listed with same | old
        · cases same
          exact ⟨stats, _, by simp, named, rfl, levelMap_leveled fun _ _ => rfl⟩
        · exact kept other entry old

end Levels

section Payloads

theorem insertMember_insertMember {β : Type} {name : String} {former latter : β}
    (members : List (String × β)) :
    insertMember name latter (insertMember name former members) = insertMember name latter members := by
  induction members with
  | nil => simp [insertMember]
  | cons entry rest ih =>
      obtain ⟨other, held⟩ := entry
      simp only [insertMember]
      split
      · simp [insertMember]
      · split
        · simp [insertMember]
        · rename_i notBefore different
          rw [insertMember, if_neg notBefore, if_neg different, ih]

theorem covers_of_get? (same : ∀ name, name ≠ "_levels" → published.get? name = payload.get? name)
    (covers : Covers id payload) : Covers id published := by
  rw [Covers] at covers ⊢
  cases kind : id.keyField with
  | none =>
      simp only [kind] at covers ⊢
      intro name required
      rw [same name (requiredFields_plain name required).2]
      exact covers name required
  | some pkField =>
      simp only [kind, items] at covers ⊢
      rwa [same "data" (by decide)]

variable [NumberText]

/-- Observing a payload of the schema publishes one of the schema, the same but for its levels. -/
theorem withLevels_conforms (conforms : Conforms id payload)
    (written : withLevels config id payload = some published) :
    Conforms id published ∧ ∀ name, name ≠ "_levels" → published.get? name = payload.get? name := by
  rw [withLevels] at written
  split at written
  · refine ⟨?_, fun name different => Json.setKey?_get?_of_ne different written⟩
    cases conforms with
    | @scalar stats levels seconds bound unkeyed documented leveled measured =>
        cases written
        rw [insertMember_insertMember]
        refine .scalar unkeyed documented ?_ measured
        rw [scan, unkeyed]
        refine levelMap_leveled fun name watched => ?_
        obtain ⟨notTime, notLevels⟩ := alertFields_plain name watched
        rw [Json.get?_object, lookup_insertMember_of_ne notLevels, lookup_insertMember_of_ne notTime]
    | @collection pkField listing levels seconds bound keyed listed leveled measured =>
        cases written
        refine .collection keyed listed ?_ measured
        rw [scan_items keyed rfl]
        exact foldl_itemsLeveled listed.objects
  · cases written
    exact ⟨conforms, fun _ _ => rfl⟩

end Payloads

end GlancesRs
