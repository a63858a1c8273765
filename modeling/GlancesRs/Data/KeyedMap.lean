import Mathlib.Data.List.AList

/-! Maps with distinct keys, filtered and mapped entry by entry, and collected
from pairs. -/

namespace AList

variable {α β γ : Type}

def mapEntry (f : α → β → Option γ) (entry : (_ : α) × β) : Option ((_ : α) × γ) :=
  (f entry.1 entry.2).map fun value => ⟨entry.1, value⟩

theorem keys_filterMap_sublist (f : α → β → Option γ) (entries : List ((_ : α) × β)) :
    (entries.filterMap (mapEntry f)).keys.Sublist entries.keys := by
  induction entries with
  | nil => exact .slnil
  | cons entry rest ih =>
      cases mapped : f entry.1 entry.2 with
      | none => simpa [mapEntry, mapped] using ih.cons entry.1
      | some value => simpa [mapEntry, mapped] using ih

/-- The entries `f` keeps, with the values it gives them. -/
def filterMap (f : α → β → Option γ) (map : AList fun _ : α => β) : AList fun _ : α => γ where
  entries := map.entries.filterMap (mapEntry f)
  nodupKeys := (keys_filterMap_sublist f map.entries).nodup map.nodupKeys

theorem lookup_filterMap [DecidableEq α] (f : α → β → Option γ) (map : AList fun _ : α => β)
    (key : α) : (map.filterMap f).lookup key = (map.lookup key).bind (f key) := by
  refine Option.ext fun value => ?_
  rw [← Option.mem_def, mem_lookup_iff, filterMap, List.mem_filterMap, Option.bind_eq_some_iff]
  constructor
  · intro kept
    obtain ⟨⟨other, held⟩, inside, mapped⟩ := kept
    obtain ⟨_, valued, same⟩ := Option.map_eq_some_iff.mp mapped
    cases same
    exact ⟨held, mem_lookup_iff.mpr inside, valued⟩
  · intro kept
    obtain ⟨held, found, valued⟩ := kept
    exact ⟨⟨key, held⟩, mem_lookup_iff.mp found, by simp [mapEntry, valued]⟩

/-- `collect`: of several pairs with one key the last stays. -/
def collect [DecidableEq α] (pairs : List (α × β)) : AList fun _ : α => β :=
  pairs.foldl (fun map pair => map.insert pair.1 pair.2) ∅

theorem lookup_foldl_insert [DecidableEq α] (pairs : List (α × β)) (map : AList fun _ : α => β)
    (key : α) : (pairs.foldl (fun map pair => map.insert pair.1 pair.2) map).lookup key =
      (pairs.reverse.lookup key).or (map.lookup key) := by
  induction pairs generalizing map with
  | nil => rfl
  | cons pair pairs ih =>
      obtain ⟨other, value⟩ := pair
      rw [List.foldl_cons, ih, List.reverse_cons, List.lookup_append, Option.or_assoc]
      by_cases same : key = other
      · subst same
        simp
      · simp [List.lookup_cons, same, beq_eq_false_iff_ne.mpr same]

theorem lookup_collect [DecidableEq α] (pairs : List (α × β)) (key : α) :
    (collect pairs).lookup key = pairs.reverse.lookup key := by
  rw [collect, lookup_foldl_insert, lookup_empty, Option.or_none]

theorem lookup_map_pairs {γ : Type} [DecidableEq α] (keyOf : γ → α) (valueOf : γ → β)
    (members : List γ) (key : α) :
    (members.map fun member => (keyOf member, valueOf member)).lookup key =
      (members.find? fun member => keyOf member = key).map valueOf := by
  induction members with
  | nil => rfl
  | cons member members ih =>
      rw [List.map_cons, List.lookup_cons, ih, List.find?_cons]
      by_cases same : keyOf member = key
      · simp [same]
      · simp [same, beq_eq_false_iff_ne.mpr (Ne.symm same)]

/-- Collected from a list, a key has the value of the last member it is the key of. -/
theorem lookup_collect_map {γ : Type} [DecidableEq α] (keyOf : γ → α) (valueOf : γ → β)
    (members : List γ) (key : α) :
    (collect (members.map fun member => (keyOf member, valueOf member))).lookup key =
      (members.reverse.find? fun member => keyOf member = key).map valueOf := by
  rw [lookup_collect, ← List.map_reverse, lookup_map_pairs]

end AList
