import GlancesRs.Data.JsonText
import GlancesRs.Data.Members
import GlancesRs.Engine.Model
import Mathlib.Data.List.Sort

namespace GlancesRs

open Data

/-! `/api/5/all`: one task for each registered plugin, joined in the order they
complete, and the bodies they serve spliced into one object. -/

/-- A task that did not run to its end. -/
structure JoinError where
deriving DecidableEq

abbrev TaskResult := Except JoinError (PluginId × Except EnsureError (List UInt8))

/-- The tasks of `all_stats`, each with what `ensure_plugin` makes of it. -/
def spawned (registered : PluginId → Bool)
    (outcome : PluginId → Except JoinError (Except EnsureError (List UInt8))) : List TaskResult :=
  (PluginId.all.filter registered).map fun id => (outcome id).map (id, ·)

def servedPart : TaskResult → Option (String × List UInt8)
  | .ok (id, .ok body) => some (id.asStr, body)
  | _ => none

def sortParts (parts : List (String × List UInt8)) : List (String × List UInt8) :=
  parts.insertionSort fun left right => left.1 ≤ right.1

def partBytes (part : String × List UInt8) : List UInt8 :=
  utf8Bytes ('"' :: part.1.toList ++ ['"', ':']) ++ part.2

def pushPart (out : List UInt8) (entry : (String × List UInt8) × ℕ) : List UInt8 :=
  (if entry.2 > 0 then out ++ utf8Bytes [','] else out) ++ partBytes entry.1

def composeParts (parts : List (String × List UInt8)) : List UInt8 :=
  parts.zipIdx.foldl pushPart (utf8Bytes ['{']) ++ utf8Bytes ['}']

/-- The body of the response to the tasks `join_next` returns, in its order. -/
def allStats (joined : List TaskResult) : List UInt8 :=
  composeParts (sortParts (joined.filterMap servedPart))

section Compose

variable {out : List UInt8} {parts : List (String × List UInt8)} {n : ℕ}

/-- The parts with commas between them. -/
def commaSeparated : List (List UInt8) → List UInt8
  | [] => []
  | [part] => part
  | part :: rest => part ++ utf8Bytes [','] ++ commaSeparated rest

theorem foldl_pushPart_succ : (parts.zipIdx (n + 1)).foldl pushPart out =
    out ++ parts.flatMap fun part => utf8Bytes [','] ++ partBytes part := by
  induction parts generalizing n out with
  | nil => simp
  | cons part rest ih =>
      rw [List.zipIdx_cons, List.foldl_cons, ih]
      simp [pushPart]

theorem commaSeparated_cons (first : List UInt8) (rest : List (List UInt8)) :
    commaSeparated (first :: rest) = first ++ rest.flatMap fun part => utf8Bytes [','] ++ part := by
  induction rest generalizing first with
  | nil => simp [commaSeparated]
  | cons next rest ih => rw [commaSeparated, ih] <;> simp

theorem composeParts_eq : composeParts parts =
    utf8Bytes ['{'] ++ commaSeparated (parts.map partBytes) ++ utf8Bytes ['}'] := by
  cases parts with
  | nil => rfl
  | cons part rest =>
      rw [composeParts, List.zipIdx_cons, List.foldl_cons, foldl_pushPart_succ, List.map_cons,
        commaSeparated_cons, List.flatMap_map]
      simp [pushPart]

/-- A name without characters to escape. -/
def PlainName (name : String) : Prop := ∀ c ∈ name.toList, escapeChar c = [c]

theorem PluginId.plainName (id : PluginId) : PlainName id.asStr := by
  have plain : (id.asStr.toList.all fun c => escapeChar c = [c]) = true := by
    cases id <;> decide +kernel
  simpa [PlainName] using plain

end Compose

section Members

variable [NumberText] {members : List (String × Json)}

theorem utf8Bytes_serializeMember {name : String} {value : Json} (plain : PlainName name) :
    utf8Bytes (serializeMember (name, value)) = partBytes (name, toVec value) := by
  rw [serializeMember, quoted_of_plain plain, partBytes, toVec, ← utf8Bytes_append]
  simp

theorem utf8Bytes_serializeMembers (plain : ∀ member ∈ members, PlainName member.1) :
    utf8Bytes (serializeMembers members) =
      commaSeparated (members.map fun member => partBytes (member.1, toVec member.2)) := by
  induction members with
  | nil => rfl
  | cons member rest ih =>
      have head := @utf8Bytes_serializeMember _ member.1 member.2 (plain member List.mem_cons_self)
      have tail := ih fun other later => plain other (List.mem_cons_of_mem _ later)
      cases rest with
      | nil => simpa [serializeMembers, commaSeparated] using head
      | cons next rest =>
          have written : serializeMembers (member :: next :: rest) =
              serializeMember member ++ [','] ++ serializeMembers (next :: rest) := by
            rw [serializeMembers, List.append_assoc]
            · rfl
            · exact List.cons_ne_nil _ _
          rw [written, utf8Bytes_append, utf8Bytes_append, head, tail]
          rfl

/-- Splicing serialized members is serializing the object. -/
theorem composeParts_members (plain : ∀ member ∈ members, PlainName member.1) :
    composeParts (members.map fun member => (member.1, toVec member.2)) =
      toVec (.object members) := by
  have opened : utf8Bytes (serialize (.object members)) =
      utf8Bytes ['{'] ++ utf8Bytes (serializeMembers members) ++ utf8Bytes ['}'] := by
    rw [serialize, ← utf8Bytes_append, ← utf8Bytes_append]
    rfl
  rw [composeParts_eq, List.map_map, toVec, opened, utf8Bytes_serializeMembers plain]
  rfl

end Members

section Served

variable {registered : PluginId → Bool} {content : PluginId → List (String × Json)}
variable {outcome : PluginId → Except JoinError (Except EnsureError (List UInt8))}
variable {joined : List TaskResult} {id : PluginId} {name : String} {value : Json}

def servedBody : Except JoinError (Except EnsureError (List UInt8)) → Option (List UInt8)
  | .ok (.ok body) => some body
  | _ => none

theorem servedBody_eq_some {ended : Except JoinError (Except EnsureError (List UInt8))}
    {body : List UInt8} : servedBody ended = some body ↔ ended = .ok (.ok body) := by
  rcases ended with _ | _ | held <;> simp [servedBody]

theorem servedPart_task :
    servedPart ((outcome id).map (id, ·)) = (servedBody (outcome id)).map (id.asStr, ·) := by
  rcases outcome id with _ | _ | body <;> rfl

/-- The object of the registered plugins that are served. -/
def allMembers (registered : PluginId → Bool)
    (outcome : PluginId → Except JoinError (Except EnsureError (List UInt8)))
    (content : PluginId → List (String × Json)) : List (String × Json) :=
  collectMembers PluginId.asStr
    (fun id =>
      if registered id && (servedBody (outcome id)).isSome then some (.object (content id)) else none)
    PluginId.all

theorem allMembers_sorted : SortedMembers (allMembers registered outcome content) :=
  sortedMembers_collectMembers

theorem mem_allMembers : (name, value) ∈ allMembers registered outcome content ↔
    ∃ id, registered id = true ∧ (servedBody (outcome id)).isSome ∧ name = id.asStr ∧
      value = .object (content id) := by
  rw [← allMembers_sorted.lookup_eq_some]
  constructor
  · intro found
    obtain ⟨id, _, rfl, made⟩ := collectMembers_source PluginId.names_nodup found
    split at made
    · rename_i served
      cases made
      rw [Bool.and_eq_true] at served
      exact ⟨id, served.1, served.2, rfl, rfl⟩
    · cases made
  · intro shown
    obtain ⟨id, exposed, served, rfl, rfl⟩ := shown
    rw [allMembers, lookup_collectMembers_of_mem PluginId.names_nodup id.mem_all]
    simp [exposed, served]

theorem allMembers_plain {member : String × Json}
    (inside : member ∈ allMembers registered outcome content) : PlainName member.1 := by
  obtain ⟨name, value⟩ := member
  obtain ⟨id, _, _, rfl, _⟩ := mem_allMembers.mp inside
  exact id.plainName

theorem lookup_allMembers :
    (allMembers registered outcome content).lookup name = some value ↔
      ∃ id, registered id = true ∧ (∃ body, outcome id = .ok (.ok body)) ∧ name = id.asStr ∧
        value = .object (content id) := by
  simp only [allMembers_sorted.lookup_eq_some, mem_allMembers, Option.isSome_iff_exists,
    servedBody_eq_some]

theorem servedParts_eq : (spawned registered outcome).filterMap servedPart =
    (PluginId.all.filter registered).filterMap fun id =>
      (servedBody (outcome id)).map (id.asStr, ·) := by
  rw [spawned, List.filterMap_map]
  exact List.filterMap_congr fun id _ => servedPart_task

theorem mem_servedParts {body : List UInt8} :
    (name, body) ∈ (spawned registered outcome).filterMap servedPart ↔
      ∃ id, registered id = true ∧ outcome id = .ok (.ok body) ∧ name = id.asStr := by
  simp only [servedParts_eq, List.mem_filterMap, List.mem_filter, PluginId.mem_all, true_and,
    Option.map_eq_some_iff, servedBody_eq_some, Prod.mk.injEq]
  constructor
  · intro served
    obtain ⟨id, exposed, held, ended, rfl, rfl⟩ := served
    exact ⟨id, exposed, ended, rfl⟩
  · intro served
    obtain ⟨id, exposed, ended, rfl⟩ := served
    exact ⟨id, exposed, body, ended, rfl, rfl⟩

theorem servedParts_nodup :
    (((spawned registered outcome).filterMap servedPart).map Prod.fst).Nodup := by
  have distinct : (PluginId.all.filter registered).Nodup := PluginId.all_nodup.filter _
  rw [servedParts_eq, List.Nodup, List.pairwise_map, List.pairwise_filterMap]
  refine distinct.imp fun apart part made other madeOther same => ?_
  obtain ⟨_, _, rfl⟩ := Option.map_eq_some_iff.mp made
  obtain ⟨_, _, rfl⟩ := Option.map_eq_some_iff.mp madeOther
  exact apart (PluginId.asStr_injective same)

theorem sortParts_sorted {parts : List (String × List UInt8)}
    (distinct : (parts.map Prod.fst).Nodup) : SortedMembers (sortParts parts) := by
  have ordered : (sortParts parts).Pairwise fun left right => left.1 ≤ right.1 :=
    List.pairwise_insertionSort (fun left right : String × List UInt8 => left.1 ≤ right.1) parts
  have apart : (sortParts parts).Pairwise fun left right => left.1 ≠ right.1 :=
    List.pairwise_map.mp (((List.perm_insertionSort _ parts).map Prod.fst).nodup_iff.mpr distinct)
  exact (ordered.and apart).imp fun both => lt_of_le_of_ne both.1 both.2

end Served

section Response

variable [NumberText] {registered : PluginId → Bool} {content : PluginId → List (String × Json)}
variable {outcome : PluginId → Except JoinError (Except EnsureError (List UInt8))}
variable {joined : List TaskResult}

/-- What is spliced are the members of the object, serialized one by one. -/
theorem sortParts_served
    (serves : ∀ id body, outcome id = .ok (.ok body) → body = toVec (.object (content id)))
    (completed : joined.Perm (spawned registered outcome)) :
    sortParts (joined.filterMap servedPart) =
      (allMembers registered outcome content).map fun member => (member.1, toVec member.2) := by
  have arrived := completed.filterMap servedPart
  have distinct : ((joined.filterMap servedPart).map Prod.fst).Nodup :=
    (arrived.map Prod.fst).nodup_iff.mpr servedParts_nodup
  refine (sortParts_sorted distinct).ext (List.pairwise_map.mpr allMembers_sorted) fun part => ?_
  obtain ⟨name, body⟩ := part
  rw [sortParts, List.mem_insertionSort, arrived.mem_iff, mem_servedParts, List.mem_map]
  constructor
  · intro served
    obtain ⟨id, exposed, ended, rfl⟩ := served
    have present : (servedBody (outcome id)).isSome := by simp [ended, servedBody]
    refine ⟨(id.asStr, .object (content id)), mem_allMembers.mpr ⟨id, exposed, present, rfl, rfl⟩, ?_⟩
    rw [serves id body ended]
  · intro shown
    obtain ⟨⟨other, value⟩, inside, same⟩ := shown
    obtain ⟨id, exposed, present, rfl, rfl⟩ := mem_allMembers.mp inside
    obtain ⟨held, found⟩ := Option.isSome_iff_exists.mp present
    have ended := servedBody_eq_some.mp found
    cases same
    exact ⟨id, exposed, by rw [ended, serves id held ended], rfl⟩

/-- Whatever the order in which the tasks complete, the response is the compact
serialization of the object that holds exactly the served plugins, in order. -/
theorem allStats_exact (documented : NumberText.Documented)
    (serves : ∀ id body, outcome id = .ok (.ok body) → body = toVec (.object (content id)))
    (completed : joined.Perm (spawned registered outcome)) :
    allStats joined = toVec (.object (allMembers registered outcome content)) ∧
      SortedMembers (allMembers registered outcome content) ∧
      (∀ name value, (allMembers registered outcome content).lookup name = some value ↔
        ∃ id, registered id = true ∧ (∃ body, outcome id = .ok (.ok body)) ∧ name = id.asStr ∧
          value = .object (content id)) ∧
      ∃ text, JsonText text ∧ allStats joined = utf8Bytes text := by
  have spliced : allStats joined = toVec (.object (allMembers registered outcome content)) := by
    rw [allStats, sortParts_served serves completed]
    exact composeParts_members fun member inside => allMembers_plain inside
  refine ⟨spliced, allMembers_sorted, fun name value => lookup_allMembers, ?_⟩
  exact ⟨_, jsonText_serialize documented _, spliced⟩

end Response

/-- With `cpu` timed out and `mem` answering before `fs`. -/
def memThenFs (id : PluginId) : Except JoinError (Except EnsureError (List UInt8)) :=
  match id with
  | .fs => .ok (.ok (utf8Bytes "\x7b\x7d".toList))
  | .mem => .ok (.ok (utf8Bytes "\x7b\"total\":3\x7d".toList))
  | _ => .ok (.error .timeout)

def memThenFsContent (id : PluginId) : List (String × Json) :=
  match id with
  | .mem => [("total", .number (.posInt 3))]
  | _ => []

theorem memThenFs_allStats_exact :
    allStats [.ok (.mem, .ok (utf8Bytes "\x7b\"total\":3\x7d".toList)), .ok (.cpu, .error .timeout),
        .ok (.fs, .ok (utf8Bytes "\x7b\x7d".toList))] =
      @toVec .zeroFloats (.object [("fs", .object []), ("mem", .object (memThenFsContent .mem))]) := by
  have documented := NumberText.zeroFloats_documented
  have completed : List.Perm [.ok (.mem, .ok (utf8Bytes "\x7b\"total\":3\x7d".toList)),
      .ok (.cpu, .error .timeout), .ok (.fs, .ok (utf8Bytes "\x7b\x7d".toList))]
      (spawned (fun id => id = .cpu ∨ id = .fs ∨ id = .mem) memThenFs) := by
    decide +kernel
  have serves : ∀ id body, memThenFs id = .ok (.ok body) →
      body = @toVec .zeroFloats (.object (memThenFsContent id)) := by
    intro id body ended
    cases id <;> cases ended <;> decide +kernel
  exact (@allStats_exact .zeroFloats _ _ _ _ documented serves completed).1.trans rfl

end GlancesRs
