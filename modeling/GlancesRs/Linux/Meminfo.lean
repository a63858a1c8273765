import GlancesRs.Data.Decimal
import GlancesRs.Data.Text
import GlancesRs.Data.Words
import GlancesRs.Plugins.MemSwap

namespace GlancesRs

open Data

/-! `/proc/meminfo` and `/proc/vmstat`: memory and swap figures in bytes. The
plain operators of the source overflow into `none`. -/

structure MemInfo where
  total : UInt64
  available : UInt64
  free : UInt64
  buffers : UInt64
  cached : UInt64
  active : UInt64
  inactive : UInt64
  shared : UInt64
  slab : UInt64
  used : UInt64
  percent : Float

/-- Key and number of a line such as `MemTotal:       16461176 kB`. -/
def memEntry (line : List Char) : Option (List Char × UInt64) := do
  let (key, rest) ← splitOnce ':' line
  let num ← (splitWhitespace rest).head?
  let value ← parseU64 num
  return (key, value)

/-- The percentage over any numbers, as `cpuPercents`. -/
def usedPercent {κ : Type} [Mul κ] [Div κ] [OfNat κ 0] [OfNat κ 100] (cast : UInt64 → κ)
    (round : κ → κ) (used total : UInt64) : κ :=
  if total = 0 then 0 else round (cast used / cast total * 100)

def insertEntry (kv : HashMap (List Char) UInt64) (line : List Char) :
    Option (HashMap (List Char) UInt64) :=
  match memEntry line with
  | some (key, value) => (mulU64 value 1024).map fun bytes => kv.insert key bytes
  | none => some kv

/-- The closure `g`. -/
def figure (kv : HashMap (List Char) UInt64) (k : String) : UInt64 := (kv.lookup k.toList).getD 0

def memInfo (kv : HashMap (List Char) UInt64) (cached : UInt64) : MemInfo :=
  let total := figure kv "MemTotal"
  let free := figure kv "MemFree"
  let available := if "MemAvailable".toList ∈ kv then figure kv "MemAvailable" else free
  let used := saturatingSubU64 total available
  { total, available, free, cached, used
    buffers := figure kv "Buffers"
    active := figure kv "Active"
    inactive := figure kv "Inactive"
    shared := figure kv "Shmem"
    slab := figure kv "Slab"
    percent := usedPercent UInt64.toFloat round1 used total }

def parseMeminfo (content : List Char) : Option MemInfo := do
  let kv ← (lines content).foldlM insertEntry ∅
  let cached ← addU64 (figure kv "Cached") (figure kv "SReclaimable")
  return memInfo kv cached

/-- Total and free swap so far. -/
def swapEntry (swap : UInt64 × UInt64) (line : List Char) : Option (UInt64 × UInt64) :=
  match memEntry line with
  | some (key, value) =>
      if key = "SwapTotal".toList then (mulU64 value 1024).map fun total => (total, swap.2)
      else if key = "SwapFree".toList then (mulU64 value 1024).map fun free => (swap.1, free)
      else some swap
  | none => some swap

/-- Pages swapped in and out so far. -/
def vmstatLine (pages : UInt64 × UInt64) (line : List Char) : UInt64 × UInt64 :=
  match splitWhitespace line with
  | [] => pages
  | name :: tokens =>
      if name = "pswpin".toList then (nextU64 tokens, pages.2)
      else if name = "pswpout".toList then (pages.1, nextU64 tokens)
      else pages

def parseSwap (meminfo vmstat : List Char) (pageSize : UInt64) : Option SwapInfo := do
  let (total, free) ← (lines meminfo).foldlM swapEntry (0, 0)
  let (pswpin, pswpout) := (lines vmstat).foldl vmstatLine (0, 0)
  let used := saturatingSubU64 total free
  return {
    total, used, free
    percent := usedPercent UInt64.toFloat round1 used total
    sin := saturatingMulU64 pswpin pageSize
    sout := saturatingMulU64 pswpout pageSize }

end GlancesRs
