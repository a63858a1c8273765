import GlancesRs.Data.Json
import Mathlib.Data.List.Nodup
import Mathlib.Data.String.Basic

namespace GlancesRs.Data

/-! Objects in the key order of a `BTreeMap`: insertion keeps the order, and
inserting what is there changes nothing. Objects are also built by a loop that
inserts what is present, and laid over one another. -/

def SortedMembers {β : Type} (members : List (String × β)) : Prop :=
  members.Pairwise fun left right => left.1 < right.1

variable {β : Type} {key other : String} {value held : β} {members : List (String × β)}

theorem mem_insertMember {member : String × β} (inserted : member ∈ insertMember key value members) :
    member = (key, value) ∨ member ∈ members := by
  induction members with
  | nil => exact .inl (List.mem_singleton.mp inserted)
  | cons first rest ih =>
      obtain ⟨other, held⟩ := first
      simp only [insertMember] at inserted
      split at inserted
      · simpa using inserted
      · split at inserted
        · rcases List.mem_cons.mp inserted with new | old
          · exact .inl new
          · exact .inr (List.mem_cons_of_mem _ old)
        · rcases List.mem_cons.mp inserted with same | later
          · exact .inr (same ▸ List.mem_cons_self)
          · exact (ih later).imp_right (List.mem_cons_of_mem _)

theorem SortedMembers.insertMember (sorted : SortedMembers members) (key : String) (value : β) :
    SortedMembers (insertMember key value members) := by
  induction members with
  | nil => exact List.pairwise_singleton _ _
  | cons first rest ih =>
      obtain ⟨other, held⟩ := first
      obtain ⟨least, tail⟩ := List.pairwise_cons.mp sorted
      simp only [Data.insertMember]
      split
      · rename_i before
        refine List.pairwise_cons.mpr ⟨?_, sorted⟩
        exact List.forall_mem_cons.mpr ⟨before, fun member inside => before.trans (least member inside)⟩
      · split
        · rename_i same
          subst same
          exact List.pairwise_cons.mpr ⟨least, tail⟩
        · rename_i notBefore different
          have after : other < key := lt_of_le_of_ne (not_lt.mp notBefore) (Ne.symm different)
          refine List.pairwise_cons.mpr ⟨fun member inside => ?_, ih tail⟩
          rcases mem_insertMember inside with rfl | old
          · exact after
          · exact least member old

theorem SortedMembers.mem_of_lookup (found : members.lookup key = some value) :
    (key, value) ∈ members := by
  induction members with
  | nil => cases found
  | cons first rest ih =>
      obtain ⟨other, held⟩ := first
      rw [List.lookup_cons] at found
      split at found
      · rename_i same
        obtain rfl := eq_of_beq same
        cases found
        exact List.mem_cons_self
      · exact List.mem_cons_of_mem _ (ih found)

theorem SortedMembers.insertMember_of_lookup (sorted : SortedMembers members)
    (found : members.lookup key = some value) : Data.insertMember key value members = members := by
  induction members with
  | nil => cases found
  | cons first rest ih =>
      obtain ⟨other, held⟩ := first
      obtain ⟨least, tail⟩ := List.pairwise_cons.mp sorted
      rw [List.lookup_cons] at found
      split at found
      · rename_i same
        obtain rfl := eq_of_beq same
        cases found
        simp [Data.insertMember]
      · rename_i different
        have after : other < key := least _ (mem_of_lookup found)
        have apart : key ≠ other := ne_of_gt after
        rw [Data.insertMember, if_neg (not_lt_of_gt after), if_neg apart, ih tail found]

theorem SortedMembers.nodup (sorted : SortedMembers members) : members.Nodup :=
  sorted.imp fun before same => absurd (congrArg Prod.fst same) (ne_of_lt before)

theorem SortedMembers.lookup_eq_some (sorted : SortedMembers members) :
    members.lookup key = some value ↔ (key, value) ∈ members := by
  constructor
  · exact mem_of_lookup
  · intro inside
    induction members with
    | nil => cases inside
    | cons first rest ih =>
        obtain ⟨other, held⟩ := first
        obtain ⟨least, tail⟩ := List.pairwise_cons.mp sorted
        rcases List.mem_cons.mp inside with same | later
        · cases same
          simp
        · have apart : (key == other) = false := beq_eq_false_iff_ne.mpr (ne_of_gt (least _ later))
          rw [List.lookup_cons, apart]
          exact ih tail later

/-- An object is determined by what it holds. -/
theorem SortedMembers.ext {left right : List (String × β)} (first : SortedMembers left)
    (second : SortedMembers right) (same : ∀ member, member ∈ left ↔ member ∈ right) :
    left = right := by
  have listed : left.Perm right := (List.perm_ext_iff_of_nodup first.nodup second.nodup).mpr same
  exact List.Perm.eq_of_pairwise (fun _ _ _ _ before after => absurd before after.not_gt) first second
    listed

/-- An object without members is one that has nothing under any key. -/
theorem isEmpty_iff_lookup :
    members.isEmpty = true ↔ ∀ key, members.lookup key = none := by
  cases members with
  | nil => simp
  | cons first rest =>
      obtain ⟨name, held⟩ := first
      refine iff_of_false Bool.false_ne_true fun absent => ?_
      simpa using absent name

/-- `if let Some(value) = value { members.insert(key, value) }`. -/
def insertSome (key : String) (value : Option β) (members : List (String × β)) :
    List (String × β) :=
  match value with
  | some value => insertMember key value members
  | none => members

@[simp] theorem insertSome_none : insertSome key none members = members := rfl

@[simp] theorem insertSome_some :
    insertSome key (some value) members = insertMember key value members := rfl

theorem lookup_insertSome {value : Option β} (fresh : members.lookup key = none) :
    (insertSome key value members).lookup other =
      if other = key then value else members.lookup other := by
  cases value with
  | none =>
      split
      · rename_i same
        rw [same, insertSome_none, fresh]
      · rfl
  | some value =>
      split
      · rename_i same
        rw [same, insertSome_some, lookup_insertMember_self]
      · rename_i different
        rw [insertSome_some, lookup_insertMember_of_ne different]

theorem lookup_insertSome_of_ne {value : Option β} (different : other ≠ key) :
    (insertSome key value members).lookup other = members.lookup other := by
  cases value with
  | none => rfl
  | some value => exact lookup_insertMember_of_ne different

theorem SortedMembers.insertSome (sorted : SortedMembers members) (key : String)
    (value : Option β) : SortedMembers (insertSome key value members) := by
  cases value with
  | none => exact sorted
  | some value => exact sorted.insertMember key value

section Collect

variable {α : Type} {keyOf : α → String} {valueOf : α → Option β} {entries : List α} {entry : α}

/-- The object a loop leaves that inserts the values its entries have. -/
def collectMembers (keyOf : α → String) (valueOf : α → Option β) (entries : List α) :
    List (String × β) :=
  entries.foldl (fun members entry => insertSome (keyOf entry) (valueOf entry) members) []

theorem SortedMembers.foldl_insertSome (sorted : SortedMembers members) :
    SortedMembers (entries.foldl
      (fun members entry => Data.insertSome (keyOf entry) (valueOf entry) members) members) := by
  induction entries generalizing members with
  | nil => exact sorted
  | cons first rest ih => exact ih (sorted.insertSome _ _)

theorem sortedMembers_collectMembers : SortedMembers (collectMembers keyOf valueOf entries) :=
  SortedMembers.foldl_insertSome List.Pairwise.nil

theorem lookup_foldl_insertSome (distinct : (entries.map keyOf).Nodup)
    (fresh : ∀ entry ∈ entries, members.lookup (keyOf entry) = none) :
    (entries.foldl (fun members entry => insertSome (keyOf entry) (valueOf entry) members)
        members).lookup other =
      ((entries.find? (keyOf · = other)).bind valueOf).or (members.lookup other) := by
  induction entries generalizing members with
  | nil => simp
  | cons first rest ih =>
      rw [List.map_cons, List.nodup_cons, List.mem_map, not_exists] at distinct
      obtain ⟨apart, distinct⟩ := distinct
      have head := fresh first List.mem_cons_self
      rw [List.foldl_cons, ih distinct ?_, lookup_insertSome head]
      · by_cases same : keyOf first = other
        · have later : rest.find? (keyOf · = other) = none :=
            List.find?_eq_none.mpr fun entry inside => by
              simpa [← same] using fun equal => apart entry ⟨inside, equal⟩
          subst same
          simp [later, head]
        · simp [same, Ne.symm same]
      · intro entry inside
        rw [lookup_insertSome head, if_neg fun equal => apart entry ⟨inside, equal⟩]
        exact fresh entry (List.mem_cons_of_mem _ inside)

theorem lookup_collectMembers (distinct : (entries.map keyOf).Nodup) :
    (collectMembers keyOf valueOf entries).lookup other =
      (entries.find? (keyOf · = other)).bind valueOf := by
  have started := @lookup_foldl_insertSome β other [] α keyOf valueOf entries distinct
    fun _ _ => List.lookup_nil
  simpa [collectMembers] using started

theorem collectMembers_source (distinct : (entries.map keyOf).Nodup)
    (found : (collectMembers keyOf valueOf entries).lookup other = some value) :
    ∃ entry ∈ entries, keyOf entry = other ∧ valueOf entry = some value := by
  rw [lookup_collectMembers distinct] at found
  obtain ⟨entry, first, valued⟩ := Option.bind_eq_some_iff.mp found
  exact ⟨entry, List.mem_of_find?_eq_some first, by simpa using List.find?_some first, valued⟩

/-- Among entries with distinct keys one is found by its own. -/
theorem find?_keyOf (distinct : (entries.map keyOf).Nodup) (listed : entry ∈ entries) :
    entries.find? (keyOf · = keyOf entry) = some entry := by
  have present : (entries.find? (keyOf · = keyOf entry)).isSome = true :=
    List.find?_isSome.mpr ⟨entry, listed, by simp⟩
  obtain ⟨first, found⟩ := Option.isSome_iff_exists.mp present
  have named : keyOf first = keyOf entry := by simpa using List.find?_some found
  rw [found, List.inj_on_of_nodup_map distinct (List.mem_of_find?_eq_some found) listed named]

theorem lookup_collectMembers_of_mem (distinct : (entries.map keyOf).Nodup)
    (listed : entry ∈ entries) :
    (collectMembers keyOf valueOf entries).lookup (keyOf entry) = valueOf entry := by
  rw [lookup_collectMembers distinct, find?_keyOf distinct listed, Option.bind_some]

end Collect

/-- The first object's members before the second's. -/
def overlayMembers (upper lower : List (String × β)) : List (String × β) :=
  upper.foldr (fun member members => insertMember member.1 member.2 members) lower

theorem lookup_overlayMembers (upper lower : List (String × β)) :
    (overlayMembers upper lower).lookup key = (upper.lookup key).or (lower.lookup key) := by
  induction upper with
  | nil => rfl
  | cons first rest ih =>
      obtain ⟨other, held⟩ := first
      rw [overlayMembers, List.foldr_cons, ← overlayMembers, List.lookup_cons]
      by_cases same : key = other
      · simp [same]
      · rw [lookup_insertMember_of_ne same, ih, beq_eq_false_iff_ne.mpr same]

end GlancesRs.Data
