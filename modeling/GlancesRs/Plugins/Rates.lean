import GlancesRs.Alerts.Reconcile
import GlancesRs.Config.Model
import GlancesRs.Plugins.Envelope

namespace GlancesRs

open Data

/-! What the rate plugins share: per-second rates of cumulative counters, and the
construction of the objects they publish. -/

/-- `u64::saturating_sub`. -/
def saturatingSubU64 (left right : UInt64) : UInt64 := if right ≤ left then left - right else 0

theorem saturatingSubU64_toNat (left right : UInt64) :
    (saturatingSubU64 left right).toNat = left.toNat - right.toNat := by
  rw [saturatingSubU64]
  split
  · rename_i within
    exact UInt64.toNat_sub_of_le _ _ within
  · rename_i beyond
    rw [UInt64.le_iff_toNat_le, Nat.not_le] at beyond
    rw [UInt64.toNat_zero, Nat.sub_eq_zero_of_le beyond.le]

/-- `u64::saturating_add`. -/
def saturatingAddU64 (left right : UInt64) : UInt64 :=
  if left.toNat + right.toNat < 2 ^ 64 then left + right else .ofNat (2 ^ 64 - 1)

/-- `u64::saturating_mul`. -/
def saturatingMulU64 (left right : UInt64) : UInt64 :=
  if left.toNat * right.toNat < 2 ^ 64 then left * right else .ofNat (2 ^ 64 - 1)

theorem saturatingMulU64_toNat (left right : UInt64) :
    (saturatingMulU64 left right).toNat = min (left.toNat * right.toNat) (2 ^ 64 - 1) := by
  rw [saturatingMulU64]
  split
  · rename_i fits
    rw [UInt64.toNat_mul, Nat.mod_eq_of_lt fits]
    omega
  · rename_i beyond
    rw [UInt64.toNat_ofNat', Nat.mod_eq_of_lt (by decide)]
    omega

/-- The operator `+`; `none` where it overflows. -/
def addU64 (left right : UInt64) : Option UInt64 :=
  if left.toNat + right.toNat < 2 ^ 64 then some (left + right) else none

/-- The operator `*`; `none` where it overflows. -/
def mulU64 (left right : UInt64) : Option UInt64 :=
  if left.toNat * right.toNat < 2 ^ 64 then some (left * right) else none

theorem addU64_isSome {left right : UInt64} :
    (addU64 left right).isSome ↔ left.toNat + right.toNat < 2 ^ 64 := by
  rw [addU64]
  split <;> simp_all

theorem mulU64_isSome {left right : UInt64} :
    (mulU64 left right).isSome ↔ left.toNat * right.toNat < 2 ^ 64 := by
  rw [mulU64]
  split <;> simp_all

/-- `Duration::as_secs_f64`. -/
def asSecsF64 (nanos : ℕ) : Float :=
  .ofNat (nanos / 10 ^ 9) + .ofNat (nanos % 10 ^ 9) / .ofNat (10 ^ 9)

/-- Per-second rate of a counter delta over the measured interval. -/
def perSec (delta : UInt64) (elapsed : Float) : Float :=
  if 0 < elapsed then round1 (delta.toFloat / elapsed) else 0

/-- `now.duration_since(last).as_secs_f64()`, zero for a later `last`. -/
def secondsSince (last now : Instant) : Float := asSecsF64 (now - last)

def Data.Json.ofU64 (value : UInt64) : Json := .number (.posInt value)

theorem Data.Json.ofF64_asF64? {value number : Float}
    (read : (Json.ofF64 value).asF64? = some number) : value = number := by
  rw [Json.ofF64] at read
  split at read
  · cases read
    rfl
  · cases read

def Data.Json.ofRate (delta : UInt64) (elapsed : Float) : Json := .ofF64 (perSec delta elapsed)

/-- The object `json!` makes of its members. -/
def jsonMembers (members : List (String × Json)) : List (String × Json) := overlayMembers members []

@[simp] theorem lookup_jsonMembers (members : List (String × Json)) (key : String) :
    (jsonMembers members).lookup key = members.lookup key := by
  rw [jsonMembers, lookup_overlayMembers, List.lookup_nil, Option.or_none]

theorem envelope_get? {members : List (String × Json)} {timeSinceUpdate : Float} {name : String}
    (notTime : name ≠ "time_since_update") (notLevels : name ≠ "_levels") :
    (envelope (.object members) timeSinceUpdate).get? name = members.lookup name := by
  simp only [envelope, Json.get?_object]
  rw [lookup_insertMember_of_ne notLevels, lookup_insertMember_of_ne notTime]

end GlancesRs
