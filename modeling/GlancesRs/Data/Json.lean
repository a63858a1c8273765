import Mathlib.Data.List.Basic

namespace GlancesRs.Data

/-! `serde_json::Value`, with objects in the key order of a `BTreeMap` (the
`preserve_order` feature is off). -/

inductive Number where
  | posInt (value : UInt64)
  | negInt (value : Int64)
  | float (value : Float)
deriving DecidableEq

/-- `serde_json` prints floats with the shortest digits that read back; the
text matters here only where a number is used as a key. -/
class NumberText where
  text : Number → String

abbrev NumberText.integers : NumberText where
  text
    | .posInt value => toString value.toNat
    | .negInt value => toString value.toInt
    | .float _ => ""

def Number.asF64 : Number → Float
  | .posInt value => value.toFloat
  | .negInt value => .ofInt value.toInt
  | .float value => value

inductive Json where
  | null
  | bool (value : Bool)
  | number (value : Number)
  | string (value : String)
  | array (items : List Json)
  | object (members : List (String × Json))

/-- `Map::insert`: a present key keeps its place, a new one goes in order. -/
def insertMember {β : Type} (key : String) (value : β) : List (String × β) → List (String × β)
  | [] => [(key, value)]
  | (other, held) :: rest =>
      if key < other then (key, value) :: (other, held) :: rest
      else if key = other then (key, value) :: rest
      else (other, held) :: insertMember key value rest

section Members

variable {β : Type} {key other : String} {value : β} {members : List (String × β)}

@[simp] theorem lookup_insertMember_self :
    (insertMember key value members).lookup key = some value := by
  induction members with
  | nil => simp [insertMember]
  | cons member rest ih =>
      obtain ⟨held, content⟩ := member
      simp only [insertMember]
      split
      · simp
      · split
        · simp
        · rename_i different
          simpa [List.lookup_cons, beq_eq_false_iff_ne.mpr different] using ih

theorem lookup_insertMember_of_ne (different : other ≠ key) :
    (insertMember key value members).lookup other = members.lookup other := by
  have apart : (other == key) = false := beq_eq_false_iff_ne.mpr different
  induction members with
  | nil => simp [insertMember, List.lookup_cons, apart]
  | cons member rest ih =>
      obtain ⟨held, content⟩ := member
      simp only [insertMember]
      split
      · simp [List.lookup_cons, apart]
      · split
        · rename_i same
          subst same
          simp [List.lookup_cons, apart]
        · simp [List.lookup_cons, ih]

end Members

namespace Json

/-- `Value::get` with a string index: only objects have members. -/
def get? (key : String) : Json → Option Json
  | .object members => members.lookup key
  | _ => none

def asF64? : Json → Option Float
  | .number value => some value.asF64
  | _ => none

def asArray? : Json → Option (List Json)
  | .array items => some items
  | _ => none

/-- `value[key] = inner`: inserts into an object, turns `null` into one and
panics on anything else. -/
def setKey? (value : Json) (key : String) (inner : Json) : Option Json :=
  match value with
  | .object members => some (.object (insertMember key inner members))
  | .null => some (.object [(key, inner)])
  | _ => none

/-- `Value::from(f64)`: JSON has no NaN or infinity. -/
def ofF64 (value : Float) : Json :=
  if value.isFinite then .number (.float value) else .null

variable {key : String} {inner before after : Json}

@[simp] theorem get?_object (members : List (String × Json)) (key : String) :
    (Json.object members).get? key = members.lookup key := rfl

theorem setKey?_get?_self (set : before.setKey? key inner = some after) :
    after.get? key = some inner := by
  cases before with
  | object members => cases set; simp
  | null => cases set; simp
  | bool value => cases set
  | number value => cases set
  | string value => cases set
  | array items => cases set

theorem setKey?_get?_of_ne {name : String} (different : name ≠ key)
    (set : before.setKey? key inner = some after) : after.get? name = before.get? name := by
  cases before with
  | object members =>
      cases set
      exact lookup_insertMember_of_ne different
  | null =>
      cases set
      simp [get?, List.lookup_cons, beq_eq_false_iff_ne.mpr different]
  | bool | number | string | array => cases set

end Json

end GlancesRs.Data
