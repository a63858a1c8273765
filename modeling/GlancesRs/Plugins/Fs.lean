import GlancesRs.Data.Utf8
import GlancesRs.Plugins.Filter
import GlancesRs.Plugins.PrimaryKeys

namespace GlancesRs

open Data

/-! The `fs` plugin on Linux: one item per listed filesystem, under the text of its
mount point. -/

/-- `plugins::Clock`: the stopwatch of an instantaneous plugin. -/
structure TickClock where
  last : Option Instant := none

/-- Seconds since the previous tick, zero on the first. -/
def TickClock.tick (clock : TickClock) (now : Instant) : TickClock × Float :=
  ({ last := some now }, clock.last.elim 0 fun last => secondsSince last now)

/-- `OsStr::to_string_lossy`. -/
def toStringLossy (bytes : List UInt8) : String := .ofList (decodeLossy bytes)

namespace Fs

/-- One entry of `sysinfo::Disks`; the names are whatever bytes the system has. -/
structure Disk where
  name : List UInt8
  fileSystem : List UInt8
  mountPoint : List UInt8
  totalSpace : UInt64
  availableSpace : UInt64

structure Statvfs where
  fFrsize : UInt64
  fBlocks : UInt64
  fBfree : UInt64
  fBavail : UInt64

/-- What a cycle can read: the refreshed list, `statvfs` where it succeeds and the
options of `/proc/self/mounts`. -/
structure Tables where
  disks : List Disk
  statvfs : String → Option Statvfs
  mountOptions : HashMap String String

/-- `linux::fs_usage`: total, used and free bytes. -/
def fsUsage (tables : Tables) (mount : String) : Option (UInt64 × UInt64 × UInt64) :=
  -- no C string has a NUL inside
  if mount.toList.contains '\x00' then none
  else (tables.statvfs mount).map fun st =>
    (saturatingMulU64 st.fBlocks st.fFrsize,
      saturatingMulU64 (saturatingSubU64 st.fBlocks st.fBfree) st.fFrsize,
      saturatingMulU64 st.fBavail st.fFrsize)

def fsPercent (used free : UInt64) : Float :=
  let denom := saturatingAddU64 used free
  if denom = 0 then 0 else round1 (used.toFloat / denom.toFloat * 100)

def usage (size free : UInt64) : UInt64 × Float :=
  let used := saturatingSubU64 size free
  (used, if size = 0 then 0 else round1 (used.toFloat / size.toFloat * 100))

def item (tables : Tables) («alias» : HashMap String String) (disk : Disk) (mnt : String) : Json :=
  let (size, used, free, percent) :=
    match fsUsage tables mnt with
    | some (size, used, free) => (size, used, free, fsPercent used free)
    | none =>
        let (used, percent) := usage disk.totalSpace disk.availableSpace
        (disk.totalSpace, used, disk.availableSpace, percent)
  let members := jsonMembers
    [ ("device_name", .string (toStringLossy disk.name)),
      ("fs_type", .string (toStringLossy disk.fileSystem)),
      ("mnt_point", .string mnt),
      ("size", .ofU64 size),
      ("used", .ofU64 used),
      ("free", .ofU64 free),
      ("percent", .ofF64 percent) ]
  let members := insertSome "options" ((tables.mountOptions.lookup mnt).map Json.string) members
  .object (insertSome "alias" ((alias.lookup mnt).map Json.string) members)

theorem item_key {tables : Tables} {«alias» : HashMap String String} {disk : Disk} {mnt : String} :
    (item tables «alias» disk mnt).get? "mnt_point" = some (.string mnt) := by
  simp [item, lookup_insertSome_of_ne, List.lookup_cons]

end Fs

namespace FsPlugin

variable {crates : Crates} (isMatch : crates.Regex → String → Bool) (plugin : CollectionPlugin crates)

/-- The items of a listing, in its order. -/
def listed (tables : Fs.Tables) : List Json :=
  tables.disks.filterMap fun disk =>
    let mnt := toStringLossy disk.mountPoint
    if plugin.filter.shown isMatch mnt then some (Fs.item tables plugin.alias disk mnt) else none

def collect (clock : TickClock) (now : Instant) (tables : Fs.Tables) : TickClock × Json :=
  let (clock, dt) := clock.tick now
  (clock, envelopeKeyed (sortItems "mnt_point" (listed isMatch plugin tables)) dt "mnt_point")

/-- The mount points shown, in listing order. -/
def shownMounts (tables : Fs.Tables) : List String :=
  (tables.disks.map fun disk => toStringLossy disk.mountPoint).filter (plugin.filter.shown isMatch)

variable {tables : Fs.Tables}

theorem listed_keys :
    (listed isMatch plugin tables).map (itemKey "mnt_point") =
      (shownMounts isMatch plugin tables).map some := by
  rw [listed, shownMounts]
  induction tables.disks with
  | nil => rfl
  | cons disk rest ih =>
      cases visible : plugin.filter.shown isMatch (toStringLossy disk.mountPoint) with
      | false => simpa [visible] using ih
      | true => simpa [visible, itemKey_of_string Fs.item_key] using ih

end FsPlugin

end GlancesRs
