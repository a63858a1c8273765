import GlancesRs.Data.Binary64
import GlancesRs.Data.Members
import Mathlib.Data.Rat.Floor

namespace GlancesRs

open Data

/-! The envelope every `collect` returns through, and the rounding of what goes
into it. -/

/-- Nearest integer, ties away from zero. -/
def roundHalfAway (value : ℚ) : ℤ :=
  if 0 ≤ value then ⌊value + 1 / 2⌋ else -⌊-value + 1 / 2⌋

/-- `f64::round`; the sign of a zero is kept. -/
def roundF64 (x : Float) : Float :=
  match x.toRational? with
  | none => x
  | some value => if roundHalfAway value = 0 then 0 * x else .ofInt (roundHalfAway value)

def round1 (x : Float) : Float := roundF64 (x * 10) / 10

def round3 (x : Float) : Float := roundF64 (x * 1000) / 1000

/-- A list of items goes under `data`, an object keeps its fields; both gain
`time_since_update` and an empty `_levels`. -/
def envelope (stats : Json) (timeSinceUpdate : Float) : Json :=
  let out : Json :=
    match stats with
    | .array items => .object [("data", .array items)]
    | other => other
  match out with
  | .object map =>
      .object (insertMember "_levels" (.object [])
        (insertMember "time_since_update" (.ofF64 (round3 timeSinceUpdate)) map))
  | other => other

def envelopeKeyed (items : List Json) (timeSinceUpdate : Float) (key : String) : Json :=
  match envelope (.array items) timeSinceUpdate with
  | .object map => .object (insertMember "_key" (.string key) map)
  | other => other

/-- What is known of a payload as it comes from an envelope. -/
def Enveloped (payload : Json) : Prop :=
  ∃ members, payload = .object members ∧ SortedMembers members ∧
    members.lookup "_levels" = some (.object [])

variable {members : List (String × Json)} {items : List Json} {timeSinceUpdate : Float}

theorem envelope_enveloped (sorted : SortedMembers members) (timeSinceUpdate : Float) :
    Enveloped (envelope (.object members) timeSinceUpdate) :=
  ⟨_, rfl, (sorted.insertMember _ _).insertMember _ _, lookup_insertMember_self⟩

theorem envelope_items_enveloped (items : List Json) (timeSinceUpdate : Float) :
    Enveloped (envelope (.array items) timeSinceUpdate) := by
  have sorted : SortedMembers [("data", Json.array items)] := List.pairwise_singleton _ _
  exact ⟨_, rfl, (sorted.insertMember _ _).insertMember _ _, lookup_insertMember_self⟩

theorem envelopeKeyed_enveloped (items : List Json) (timeSinceUpdate : Float) (key : String) :
    Enveloped (envelopeKeyed items timeSinceUpdate key) := by
  obtain ⟨members, enveloped, sorted, levels⟩ := envelope_items_enveloped items timeSinceUpdate
  refine ⟨_, by simp only [envelopeKeyed, enveloped]; rfl, sorted.insertMember _ _, ?_⟩
  rw [lookup_insertMember_of_ne (by decide), levels]

end GlancesRs
