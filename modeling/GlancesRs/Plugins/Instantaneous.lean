import GlancesRs.Linux.Meminfo
import GlancesRs.Linux.OsRelease
import GlancesRs.Plugins.Fs

namespace GlancesRs

open Data

/-! The scalar plugins without rates on Linux: `mem`, `load`, `system` and
`uptime`. Between two cycles they keep the stopwatch alone. -/

/-- `memInfo` is what `read_meminfo` parsed, where the file could be read. -/
def MemPlugin.collect (clock : TickClock) (now : Instant) (memInfo : Option MemInfo) :
    TickClock × Json :=
  let (clock, tsu) := clock.tick now
  match memInfo with
  | none =>
      -- an unreadable /proc/meminfo degrades the payload to the minimal subset
      (clock, envelope (.object (jsonMembers
        [ ("total", .ofU64 0),
          ("available", .ofU64 0),
          ("percent", .ofF64 0),
          ("used", .ofU64 0),
          ("free", .ofU64 0) ])) tsu)
  | some m =>
      (clock, envelope (.object (jsonMembers
        [ ("total", .ofU64 m.total),
          ("available", .ofU64 m.available),
          ("percent", .ofF64 m.percent),
          ("used", .ofU64 m.used),
          ("free", .ofU64 m.free),
          ("active", .ofU64 m.active),
          ("inactive", .ofU64 m.inactive),
          ("buffers", .ofU64 m.buffers),
          ("cached", .ofU64 m.cached),
          ("shared", .ofU64 m.shared),
          ("slab", .ofU64 m.slab) ])) tsu)

/-- `sysinfo::LoadAvg`. -/
structure LoadAvg where
  one : Float
  five : Float
  fifteen : Float

def LoadPlugin.collect (cpucore : UInt64) (clock : TickClock) (now : Instant) (load : LoadAvg) :
    TickClock × Json :=
  let (clock, tsu) := clock.tick now
  (clock, envelope (.object (jsonMembers
    [ ("min1", .ofF64 load.one),
      ("min5", .ofF64 load.five),
      ("min15", .ofF64 load.fifteen),
      ("cpucore", .ofU64 cpucore) ])) tsu)

/-- What `sysinfo::System` and `/etc/os-release` tell of the host; `none` where
they do not. -/
structure Host where
  hostName : Option String
  kernelVersion : Option String
  osRelease : Option (List Char)

namespace SystemPlugin

def osName : String := "Linux"

/-- The pointer width of the build. -/
def platformBits : String := "64bit"

def collect (clock : TickClock) (now : Instant) (host : Host) : TickClock × Json :=
  let hostname := host.hostName.getD ""
  let osVersion := host.kernelVersion.getD ""
  let linuxDistro := (host.osRelease.map parseOsRelease).getD ""
  let hrName := s!"{linuxDistro} {platformBits} / {osName} {osVersion}"
  let (clock, tsu) := clock.tick now
  (clock, envelope (.object (jsonMembers
    [ ("os_name", .string osName),
      ("hostname", .string hostname),
      ("platform", .string platformBits),
      ("os_version", .string osVersion),
      ("linux_distro", .string linuxDistro),
      ("hr_name", .string hrName) ])) tsu)

end SystemPlugin

def UptimePlugin.collect (clock : TickClock) (now : Instant) (uptime : UInt64) : TickClock × Json :=
  let (clock, tsu) := clock.tick now
  (clock, envelope (.object (jsonMembers [("seconds", .ofU64 uptime)])) tsu)

end GlancesRs
