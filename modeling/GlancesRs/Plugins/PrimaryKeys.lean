import GlancesRs.Plugins.Collection

namespace GlancesRs

open Data

/-! The order of the items of a collection payload: sorted by primary key, so
strictly ascending as soon as no two items share one. -/

/-- Every item has its primary key, and the keys are in strictly ascending order. -/
def Ascending (pkField : String) (items : List Json) : Prop :=
  ∃ names : List String, items.map (itemKey pkField) = names.map some ∧ names.Pairwise (· < ·)

variable {pkField name : String} {names : List String} {items : List Json} {item : Json}

theorem itemKey_of_string (keyed : item.get? pkField = some (.string name)) :
    itemKey pkField item = some name := by
  rw [itemKey, keyed]
  rfl

theorem sortItems_keys (keyed : items.map (itemKey pkField) = names.map some) :
    (sortItems pkField items).map (itemKey pkField) = (names.insertionSort (· ≤ ·)).map some := by
  rw [sortItems, List.map_insertionSort _ (fun left right => keyLe left right = true), keyed,
    List.map_insertionSort (· ≤ ·) (fun left right => keyLe left right = true)]
  · intro left _ right _
    simp [keyLe]
  · intro left _ right _
    rfl

/-- Sorting leaves no room for a key that occurs twice. -/
theorem sortItems_ascending_iff (keyed : items.map (itemKey pkField) = names.map some) :
    Ascending pkField (sortItems pkField items) ↔ names.Nodup := by
  have sorted := sortItems_keys keyed
  constructor
  · intro ascending
    obtain ⟨others, same, strict⟩ := ascending
    have listed : names.insertionSort (· ≤ ·) = others :=
      List.map_injective_iff.mpr (Option.some_injective String) (sorted.symm.trans same)
    rw [← (List.perm_insertionSort (· ≤ ·) names).nodup_iff, listed]
    exact strict.imp ne_of_lt
  · intro distinct
    refine ⟨names.insertionSort (· ≤ ·), sorted, ?_⟩
    have apart := (List.perm_insertionSort (· ≤ ·) names).nodup_iff.mpr distinct
    have ordered : (names.insertionSort (· ≤ ·)).Pairwise (· ≤ ·) :=
      List.pairwise_insertionSort (· ≤ ·) names
    exact (ordered.and apart).imp fun both => lt_of_le_of_ne both.1 both.2

section Step

variable {κ : Type} {render : String → κ → κ → Json} {previous current : HashMap String κ}

/-- The items of a step before they are sorted, under their keys. -/
def stepEntries (render : String → κ → κ → Json) (previous current : HashMap String κ) :
    HashMap String Json :=
  current.filterMap fun name cur => (previous.lookup name).map fun prev => render name prev cur

theorem stepItems_eq : (stepItems pkField render previous current).1 =
    sortItems pkField ((stepEntries render previous current).entries.map Sigma.snd) := by
  simp only [stepItems, stepEntries, AList.filterMap, List.map_filterMap]
  congr 2
  funext entry
  simp only [AList.mapEntry]
  cases previous.lookup entry.1 <;> rfl

/-- Every item of a rate step has its own key. -/
theorem stepItems_keys
    (keyed : ∀ name prev cur, (render name prev cur).get? pkField = some (.string name)) :
    ((stepEntries render previous current).entries.map Sigma.snd).map (itemKey pkField) =
      (stepEntries render previous current).keys.map some := by
  simp only [AList.keys, List.keys, List.map_map]
  refine List.map_congr_left fun entry inside => ?_
  have found := AList.mem_lookup_iff.mpr inside
  rw [Option.mem_def, stepEntries, AList.lookup_filterMap] at found
  obtain ⟨cur, _, made⟩ := Option.bind_eq_some_iff.mp found
  obtain ⟨prev, _, shown⟩ := Option.map_eq_some_iff.mp made
  exact itemKey_of_string (shown ▸ keyed entry.1 prev cur)

theorem stepItems_ascending
    (keyed : ∀ name prev cur, (render name prev cur).get? pkField = some (.string name)) :
    Ascending pkField (stepItems pkField render previous current).1 := by
  rw [stepItems_eq, sortItems_ascending_iff (stepItems_keys keyed)]
  exact (stepEntries render previous current).nodupKeys

end Step

end GlancesRs
