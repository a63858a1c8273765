import GlancesRs.Data.Decimal
import GlancesRs.Data.Words
import GlancesRs.Plugins.Network

namespace GlancesRs

open Data

/-! `/sys/class/net`: status and link speed of an interface, from the contents of
its files where they can be read. -/

/-- `trim_start_matches("0x")`: every such prefix. -/
def trimHexPrefix : List Char → List Char
  | '0' :: 'x' :: rest => trimHexPrefix rest
  | text => text

def trimmed (content : List Char) : List Char := (trim (.ofList content)).toList

def isIfaceUp (flags : Option (List Char)) : Bool :=
  let bits := flags.bind fun content => fromStrRadix 16 (2 ^ 64) (trimHexPrefix (trimmed content))
  (bits.map fun bits => decide (bits % 2 = 1)).getD false

/-- The link speed in Mbps; 0 when it is unknown. -/
def linkMbps (speed : Option (List Char)) : UInt64 :=
  let mbps := (speed.bind fun content => parseI64 (trimmed content)).filter (0 < ·)
  (mbps.map fun mbps => .ofNat mbps.toNat).getD 0

def speedCapacityBytesPerDir (mbps : UInt64) : Option UInt64 :=
  (mulU64 mbps 1000000).map (· / 8)

def readIfaceMeta (flags speed : Option (List Char)) : Option Network.LinuxIfaceMeta := do
  let mbps := linkMbps speed
  let speed ← mulU64 mbps 1048576
  let bytesSpeedRatePerSec ← speedCapacityBytesPerDir mbps
  return { isUp := isIfaceUp flags, speed, bytesSpeedRatePerSec }

end GlancesRs
