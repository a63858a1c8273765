import GlancesRs.Data.Columns
import GlancesRs.Data.Decimal
import GlancesRs.Data.KeyedMap
import GlancesRs.Data.Words
import GlancesRs.Plugins.Diskio

namespace GlancesRs

open Data

/-! `/proc/diskstats`: one line a disk, of which the last with its name counts. -/

/-- The columns are major minor name reads merged sectors_read ms_read writes
merged sectors_written ms_written. -/
def diskCounters (f : List (List Char)) : DiskIoCounters :=
  let num := columnAt parseU64 0 f
  { readCount := num 3
    writeCount := num 7
    readBytes := saturatingMulU64 (num 5) 512
    writeBytes := saturatingMulU64 (num 9) 512
    readTime := num 6
    writeTime := num 10 }

def diskName (f : List (List Char)) : String := .ofList (f[2]?.getD [])

/-- The lines of at least 14 columns. -/
def diskLines (content : List Char) : List (List (List Char)) :=
  ((lines content).map splitWhitespace).filter fun f => 14 ≤ f.length

def parseDiskstats (content : List Char) : HashMap String DiskIoCounters :=
  .collect ((diskLines content).map fun f => (diskName f, diskCounters f))

variable {content : List Char} {name : String}

theorem lookup_parseDiskstats : (parseDiskstats content).lookup name =
    ((diskLines content).reverse.find? fun f => diskName f = name).map diskCounters :=
  AList.lookup_collect_map diskName diskCounters (diskLines content) name

end GlancesRs
