import GlancesRs.Plugins.Collection
import GlancesRs.Plugins.Filter

namespace GlancesRs

open Data

/-! The `diskio` plugin on Linux: rates of the `/proc/diskstats` counters. -/

structure DiskIoCounters where
  readCount : UInt64
  writeCount : UInt64
  readBytes : UInt64
  writeBytes : UInt64
  readTime : UInt64
  writeTime : UInt64
deriving DecidableEq

abbrev DiskioState := ItemState DiskIoCounters

namespace Diskio

/-- Mean time per operation in whole milliseconds, 0 without operations. -/
def latency (timeDeltaMs opsDelta : UInt64) : UInt64 :=
  if opsDelta = 0 then 0 else timeDeltaMs / opsDelta

def item («alias» : HashMap String String) (elapsed : Float) (name : String)
    (prev cur : DiskIoCounters) : Json :=
  let d (counter : DiskIoCounters → UInt64) := saturatingSubU64 (counter cur) (counter prev)
  let readTime := d DiskIoCounters.readTime
  let writeTime := d DiskIoCounters.writeTime
  let readOps := d DiskIoCounters.readCount
  let writeOps := d DiskIoCounters.writeCount
  .object (insertSome "alias" ((alias.lookup name).map Json.string) (jsonMembers
    [ ("disk_name", .string name),
      ("read_count", .ofRate readOps elapsed),
      ("write_count", .ofRate writeOps elapsed),
      ("read_bytes", .ofRate (d DiskIoCounters.readBytes) elapsed),
      ("write_bytes", .ofRate (d DiskIoCounters.writeBytes) elapsed),
      ("read_time", .ofRate readTime elapsed),
      ("write_time", .ofRate writeTime elapsed),
      ("read_latency", .ofU64 (latency readTime readOps)),
      ("write_latency", .ofU64 (latency writeTime writeOps)),
      ("read_count_cumul", .ofU64 cur.readCount),
      ("write_count_cumul", .ofU64 cur.writeCount),
      ("read_bytes_cumul", .ofU64 cur.readBytes),
      ("write_bytes_cumul", .ofU64 cur.writeBytes),
      ("hidden", .bool false) ]))

def step (previous current : HashMap String DiskIoCounters) (elapsed : Float)
    («alias» : HashMap String String) : List Json × HashMap String DiskIoCounters :=
  stepItems "disk_name" (item «alias» elapsed) previous current

def rateDeltas : List (String × (DiskIoCounters → DiskIoCounters → Option UInt64)) :=
  [ ("read_count", counterDelta DiskIoCounters.readCount),
    ("write_count", counterDelta DiskIoCounters.writeCount),
    ("read_bytes", counterDelta DiskIoCounters.readBytes),
    ("write_bytes", counterDelta DiskIoCounters.writeBytes),
    ("read_time", counterDelta DiskIoCounters.readTime),
    ("write_time", counterDelta DiskIoCounters.writeTime) ]

variable {«alias» : HashMap String String} {elapsed : Float} {name : String}
variable {prev cur : DiskIoCounters}

theorem item_key : (item «alias» elapsed name prev cur).get? "disk_name" = some (.string name) := by
  simp only [item, Json.get?_object]
  rw [lookup_insertSome_of_ne (by decide), lookup_jsonMembers]
  rfl

theorem item_rates : ∀ entry ∈ rateDeltas, (item «alias» elapsed name prev cur).get? entry.1 =
    (entry.2 cur prev).map (Json.ofRate · elapsed) := by
  simp [rateDeltas, counterDelta, item, lookup_insertSome_of_ne, List.lookup_cons]

end Diskio

namespace DiskioPlugin

variable {crates : Crates}

/-- The filtered sample; a table that cannot be read is an empty one. -/
def sample (isMatch : crates.Regex → String → Bool) (plugin : CollectionPlugin crates)
    (read : Option (HashMap String DiskIoCounters)) : HashMap String DiskIoCounters :=
  (read.getD ∅).filterMap fun name counters =>
    if plugin.filter.shown isMatch name then some counters else none

def collect (isMatch : crates.Regex → String → Bool) (plugin : CollectionPlugin crates) :
    DiskioState → SampleCycle (Option (HashMap String DiskIoCounters)) → DiskioState × Json :=
  collectItems "disk_name" (sample isMatch plugin) fun _ previous current elapsed =>
    Diskio.step previous current elapsed plugin.alias

def sampler (isMatch : crates.Regex → String → Bool) (plugin : CollectionPlugin crates) :
    Sampler DiskioState (Option (HashMap String DiskIoCounters)) Json :=
  itemSampler (collect isMatch plugin)

end DiskioPlugin

end GlancesRs
