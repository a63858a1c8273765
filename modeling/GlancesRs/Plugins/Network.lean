import GlancesRs.Plugins.Collection
import GlancesRs.Plugins.Filter

namespace GlancesRs

open Data

/-! The `network` plugin on Linux: rates of the interface counters, with the
status of each interface beside them. -/

namespace Network

/-- `drops` is `(rx, tx)` dropped packets. -/
structure Counters where
  rx : UInt64
  tx : UInt64
  errIn : UInt64
  errOut : UInt64
  drops : Option (UInt64 × UInt64)
deriving DecidableEq

structure IfaceMeta where
  isUp : Option Bool := none
  speed : Option UInt64 := none
  bytesSpeedRatePerSec : Option UInt64 := none

/-- One interface of `sysinfo::Networks`. -/
structure NetworkData where
  totalReceived : UInt64
  totalTransmitted : UInt64
  totalErrorsOnReceived : UInt64
  totalErrorsOnTransmitted : UInt64

/-- `linux::IfaceMeta`. -/
structure LinuxIfaceMeta where
  isUp : Bool
  speed : UInt64
  bytesSpeedRatePerSec : UInt64

/-- What a cycle can read: the refreshed table and the files of `/sys/class/net`. -/
structure Tables where
  networks : HashMap String NetworkData
  readIfaceDrops : String → UInt64 × UInt64
  readIfaceMeta : String → LinuxIfaceMeta

def Tables.counters (tables : Tables) (name : String) (data : NetworkData) : Counters where
  rx := data.totalReceived
  tx := data.totalTransmitted
  errIn := data.totalErrorsOnReceived
  errOut := data.totalErrorsOnTransmitted
  drops := some (tables.readIfaceDrops name)

def gatherMeta (tables : Tables) (current : HashMap String Counters) : HashMap String IfaceMeta :=
  current.filterMap fun name _ =>
    let m := tables.readIfaceMeta name
    some { isUp := some m.isUp, speed := some m.speed,
           bytesSpeedRatePerSec := some m.bytesSpeedRatePerSec }

def item (ifaceMeta : HashMap String IfaceMeta) («alias» : HashMap String String) (elapsed : Float)
    (name : String) (prev cur : Counters) : Json :=
  let recv := saturatingSubU64 cur.rx prev.rx
  let sent := saturatingSubU64 cur.tx prev.tx
  let all := saturatingAddU64 recv sent
  let members := jsonMembers
    [ ("interface_name", .string name),
      ("bytes_recv", .ofRate recv elapsed),
      ("bytes_sent", .ofRate sent elapsed),
      ("bytes_all", .ofRate all elapsed),
      ("bytes_recv_cumul", .ofU64 cur.rx),
      ("bytes_sent_cumul", .ofU64 cur.tx),
      ("errors_in", .ofRate (saturatingSubU64 cur.errIn prev.errIn) elapsed),
      ("errors_out", .ofRate (saturatingSubU64 cur.errOut prev.errOut) elapsed),
      ("hidden", .bool false) ]
  let members :=
    match cur.drops, prev.drops with
    | some (cdi, cdo), some (pdi, pdo) =>
        insertMember "dropped_out" (.ofRate (saturatingSubU64 cdo pdo) elapsed)
          (insertMember "dropped_in" (.ofRate (saturatingSubU64 cdi pdi) elapsed) members)
    | _, _ => members
  let members := insertSome "alias" ((alias.lookup name).map Json.string) members
  let m := (ifaceMeta.lookup name).getD {}
  let members := insertSome "is_up" (m.isUp.map Json.bool) members
  let members := insertSome "speed" (m.speed.map Json.ofU64) members
  let members := insertSome "bytes_speed_rate_per_sec"
    (m.bytesSpeedRatePerSec.map fun cap => .ofF64 cap.toFloat) members
  .object members

def step (previous current : HashMap String Counters) (elapsed : Float)
    (ifaceMeta : HashMap String IfaceMeta) («alias» : HashMap String String) :
    List Json × HashMap String Counters :=
  stepItems "interface_name" (item ifaceMeta «alias» elapsed) previous current

def dropDelta (side : UInt64 × UInt64 → UInt64) (cur prev : Counters) : Option UInt64 := do
  return saturatingSubU64 (side (← cur.drops)) (side (← prev.drops))

def rateDeltas : List (String × (Counters → Counters → Option UInt64)) :=
  [ ("bytes_recv", counterDelta Counters.rx),
    ("bytes_sent", counterDelta Counters.tx),
    ("bytes_all", fun cur prev =>
      some (saturatingAddU64 (saturatingSubU64 cur.rx prev.rx) (saturatingSubU64 cur.tx prev.tx))),
    ("errors_in", counterDelta Counters.errIn),
    ("errors_out", counterDelta Counters.errOut),
    ("dropped_in", dropDelta Prod.fst),
    ("dropped_out", dropDelta Prod.snd) ]

variable {ifaceMeta : HashMap String IfaceMeta} {«alias» : HashMap String String}
variable {elapsed : Float} {name : String} {prev cur : Counters}

theorem item_key :
    (item ifaceMeta «alias» elapsed name prev cur).get? "interface_name" = some (.string name) := by
  cases was : prev.drops <;> cases now : cur.drops <;>
    simp [item, was, now, lookup_insertSome_of_ne, lookup_insertMember_of_ne]

theorem item_rates : ∀ entry ∈ rateDeltas,
    (item ifaceMeta «alias» elapsed name prev cur).get? entry.1 =
      (entry.2 cur prev).map (Json.ofRate · elapsed) := by
  cases was : prev.drops <;> cases now : cur.drops <;>
    simp [rateDeltas, counterDelta, dropDelta, item, was, now, lookup_insertSome_of_ne,
      lookup_insertMember_of_ne, List.lookup_cons]

end Network

abbrev NetworkState := ItemState Network.Counters

namespace NetworkPlugin

variable {crates : Crates}

def sample (isMatch : crates.Regex → String → Bool) (plugin : CollectionPlugin crates)
    (tables : Network.Tables) : HashMap String Network.Counters :=
  tables.networks.filterMap fun name data =>
    if plugin.filter.shown isMatch name then some (tables.counters name data) else none

def collect (isMatch : crates.Regex → String → Bool) (plugin : CollectionPlugin crates) :
    NetworkState → SampleCycle Network.Tables → NetworkState × Json :=
  collectItems "interface_name" (sample isMatch plugin) fun tables previous current elapsed =>
    Network.step previous current elapsed (Network.gatherMeta tables current) plugin.alias

def sampler (isMatch : crates.Regex → String → Bool) (plugin : CollectionPlugin crates) :
    Sampler NetworkState Network.Tables Json :=
  itemSampler (collect isMatch plugin)

end NetworkPlugin

end GlancesRs
