import GlancesRs.Plugins.PluginId
import Mathlib.Data.List.Nodup

namespace GlancesRs

/-! Static per-plugin field metadata: the one table behind the schema routes,
the alertable set and the built-in thresholds. -/

/-- `high`: alert as the value rises; `low`: alert as it falls. Every shipped
field is `high`. -/
inductive Direction where
  | high | low
deriving DecidableEq, Repr

inductive FieldUnit where
  | bytes | percent | bytesPerSec | bitPerSec | number | float | bool | stringT | seconds
deriving DecidableEq, Repr

structure FieldInfo where
  field : String
  description : String
  unit : FieldUnit
  shortName : Option String
  primaryKey : Bool
  rate : Bool
  internal : Bool
  watched : Bool
  direction : Direction
  prominent : Bool
  normalizeBy : Option String
  /-- Built-in `(careful, warning, critical)`. -/
  defaults : Option (Float × Float × Float)
deriving DecidableEq

namespace FieldInfo

def new (field description : String) (unit : FieldUnit) : FieldInfo where
  field := field
  description := description
  unit := unit
  shortName := none
  primaryKey := false
  rate := false
  internal := false
  watched := false
  direction := .high
  prominent := false
  normalizeBy := none
  defaults := none

def short (info : FieldInfo) (name : String) : FieldInfo := { info with shortName := some name }

def pk (info : FieldInfo) : FieldInfo := { info with primaryKey := true }

def rateField (info : FieldInfo) : FieldInfo := { info with rate := true }

def internalField (info : FieldInfo) : FieldInfo := { info with internal := true }

def watchedHigh (info : FieldInfo) (prominent : Bool) : FieldInfo :=
  { info with watched := true, direction := .high, prominent }

def withDefaults (info : FieldInfo) (careful warning critical : Float) : FieldInfo :=
  { info with defaults := some (careful, warning, critical) }

def normalize (info : FieldInfo) (divisor : String) : FieldInfo :=
  { info with normalizeBy := some divisor }

end FieldInfo

def memFields : List FieldInfo :=
  [ FieldInfo.new "total"
        "Total physical memory available." .bytes,
    FieldInfo.new "available"
        ("Actual amount of available memory that can be given instantly to processes that " ++
          "request more memory; calculated by summing different memory values depending on the " ++
          "platform (e.g. free + buffers + cached on Linux). Suitable for monitoring actual " ++
          "memory usage in a cross-platform fashion.") .bytes
        |>.short "avail",
    FieldInfo.new "percent"
        "Percentage usage calculated as (total - available) / total * 100." .percent
        |>.watchedHigh true |>.withDefaults 50.0 70.0 90.0,
    FieldInfo.new "used"
        ("Memory used, calculated differently depending on the platform and designed for " ++
          "informational purposes only.") .bytes,
    FieldInfo.new "free"
        ("Memory not being used at all (zeroed) that is readily available; note that this does " ++
          "not reflect the actual memory available — use `available` instead.") .bytes,
    FieldInfo.new "active"
        "(UNIX) Memory currently in use or very recently used, resident in RAM." .bytes,
    FieldInfo.new "inactive"
        "(UNIX) Memory that is marked as not used." .bytes
        |>.short "inacti",
    FieldInfo.new "buffers"
        "(Linux, BSD) Cache for items like filesystem metadata." .bytes
        |>.short "buffer",
    FieldInfo.new "cached"
        "(Linux, BSD) Cache for various things (including ZFS cache)." .bytes,
    FieldInfo.new "shared"
        "(BSD) Memory that may be simultaneously accessed by multiple processes." .bytes,
    FieldInfo.new "slab"
        "(Linux) In-kernel data structures cache." .bytes ]

def cpuFields : List FieldInfo :=
  [ FieldInfo.new "total"
        "Sum of all CPU percentages (except idle)." .percent
        |>.watchedHigh true |>.withDefaults 50.0 70.0 90.0,
    FieldInfo.new "system"
        ("Percent time spent in kernel space. System CPU time is the time spent running code " ++
          "in the operating system kernel.") .percent
        |>.watchedHigh false |>.withDefaults 50.0 70.0 90.0,
    FieldInfo.new "user"
        ("Percent time spent in user space. User CPU time is the time spent on the processor " ++
          "running the program's code (or code in libraries).") .percent
        |>.watchedHigh false |>.withDefaults 50.0 70.0 90.0,
    FieldInfo.new "iowait"
        "(Linux) Percent time spent by the CPU waiting for I/O operations to complete." .percent
        |>.watchedHigh false |>.withDefaults 50.0 70.0 90.0,
    FieldInfo.new "idle"
        ("Percent of CPU not used by any program. Every program or task that runs occupies a " ++
          "certain amount of processing time on the CPU; when the CPU has completed all tasks " ++
          "it is idle.") .percent,
    FieldInfo.new "irq"
        "(Linux and BSD) Percent time spent servicing hardware and software interrupts." .percent,
    FieldInfo.new "nice"
        ("(UNIX) Percent time occupied by user-level processes with a positive nice value " ++
          "(processes that have been niced down).") .percent,
    FieldInfo.new "steal"
        ("(Linux) Percentage of time a virtual CPU waits for a real CPU while the hypervisor " ++
          "is servicing another virtual processor.") .percent
        |>.watchedHigh false |>.withDefaults 5.0 15.0 30.0,
    FieldInfo.new "guest"
        ("(Linux) Time spent running a virtual CPU for guest operating systems under the " ++
          "control of the Linux kernel.") .percent,
    FieldInfo.new "ctx_switches"
        ("Number of context switches (voluntary + involuntary) per second. A context switch is " ++
          "the procedure a CPU follows to change from one task to another while ensuring the " ++
          "tasks do not conflict.") .number
        |>.rateField |>.watchedHigh false |>.withDefaults 25000.0 37500.0 50000.0 |>.normalize "cpucore"
        |>.short "ctx_sw",
    FieldInfo.new "interrupts"
        "Number of interrupts per second." .number
        |>.rateField |>.short "inter",
    FieldInfo.new "soft_interrupts"
        "Number of software interrupts per second. Always 0 on Windows and SunOS." .number
        |>.rateField |>.short "sw_int",
    FieldInfo.new "syscalls"
        "Number of system calls per second. Always 0 on Linux." .number
        |>.rateField,
    FieldInfo.new "cpucore"
        "Total number of logical CPU cores." .number
        |>.internalField ]

def loadFields : List FieldInfo :=
  [ FieldInfo.new "min1"
        ("Average number of processes waiting in the run-queue plus those currently executing, " ++
          "over 1 minute.") .float
        |>.short "1 min",
    FieldInfo.new "min5"
        ("Average number of processes waiting in the run-queue plus those currently executing, " ++
          "over 5 minutes.") .float
        |>.watchedHigh false |>.withDefaults 0.7 1.0 5.0 |>.normalize "cpucore" |>.short "5 min",
    FieldInfo.new "min15"
        ("Average number of processes waiting in the run-queue plus those currently executing, " ++
          "over 15 minutes.") .float
        |>.watchedHigh true |>.withDefaults 0.7 1.0 5.0 |>.normalize "cpucore" |>.short "15 min",
    FieldInfo.new "cpucore"
        "Total number of logical CPU cores." .number
        |>.internalField ]

def systemFields : List FieldInfo :=
  [ FieldInfo.new "os_name"
        "Operating system name." .stringT,
    FieldInfo.new "hostname"
        "Hostname." .stringT,
    FieldInfo.new "platform"
        "Platform (32 or 64 bits)." .stringT,
    FieldInfo.new "linux_distro"
        "Linux distribution." .stringT,
    FieldInfo.new "os_version"
        "Operating system version." .stringT,
    FieldInfo.new "hr_name"
        "Human readable operating system name." .stringT ]

def uptimeFields : List FieldInfo :=
  [ FieldInfo.new "seconds"
        "Seconds elapsed since the system booted." .seconds ]

def memswapFields : List FieldInfo :=
  [ FieldInfo.new "total"
        "Total swap memory." .bytes,
    FieldInfo.new "used"
        "Used swap memory." .bytes,
    FieldInfo.new "free"
        "Free swap memory." .bytes,
    FieldInfo.new "percent"
        "Used swap memory as a percentage of total." .percent
        |>.watchedHigh true |>.withDefaults 60.0 80.0 95.0,
    FieldInfo.new "sin"
        ("Bytes the system has swapped in from disk (per second — v4 reports the cumulative " ++
          "counter; v5 converts it to a rate).") .bytesPerSec
        |>.rateField |>.watchedHigh false,
    FieldInfo.new "sout"
        ("Bytes the system has swapped out to disk (per second — v4 reports the cumulative " ++
          "counter; v5 converts it to a rate).") .bytesPerSec
        |>.rateField |>.watchedHigh false ]

def fsFields : List FieldInfo :=
  [ FieldInfo.new "mnt_point"
        "Mount point." .stringT
        |>.pk,
    FieldInfo.new "device_name"
        "Device name backing the filesystem (e.g. /dev/sda1)." .stringT,
    FieldInfo.new "fs_type"
        "File system type (e.g. ext4, xfs, btrfs)." .stringT
        |>.internalField,
    FieldInfo.new "size"
        "Total size of the filesystem in bytes." .bytes
        |>.short "Total",
    FieldInfo.new "used"
        "Used size in bytes." .bytes
        |>.short "Used",
    FieldInfo.new "free"
        "Free size in bytes." .bytes
        |>.short "Free",
    FieldInfo.new "percent"
        "Filesystem usage as a percentage of total size." .percent
        |>.watchedHigh false |>.withDefaults 70.0 80.0 90.0,
    FieldInfo.new "options"
        "Mount options string (comma-separated)." .stringT
        |>.internalField,
    FieldInfo.new "alias"
        "Operator-defined display alias for the mount point; present only when configured." .stringT ]

def diskioFields : List FieldInfo :=
  [ FieldInfo.new "disk_name"
        "Disk name (e.g. sda, nvme0n1)." .stringT
        |>.pk,
    FieldInfo.new "read_count"
        "Read operations per second (rate of psutil read_count counter)." .number
        |>.rateField |>.internalField |>.short "IOR/s",
    FieldInfo.new "write_count"
        "Write operations per second (rate of psutil write_count counter)." .number
        |>.rateField |>.internalField |>.short "IOW/s",
    FieldInfo.new "read_time"
        "Time spent reading, in milliseconds per second (rate of psutil read_time counter)." .number
        |>.rateField |>.internalField,
    FieldInfo.new "write_time"
        "Time spent writing, in milliseconds per second (rate of psutil write_time counter)." .number
        |>.rateField |>.internalField,
    FieldInfo.new "read_latency"
        "Mean time spent reading per operation, in milliseconds." .number
        |>.internalField |>.short "ms/opR",
    FieldInfo.new "write_latency"
        "Mean time spent writing per operation, in milliseconds." .number
        |>.internalField |>.short "ms/opW",
    FieldInfo.new "read_bytes_cumul"
        "Bytes read since boot (cumulative counter)." .bytes
        |>.internalField |>.short "R",
    FieldInfo.new "write_bytes_cumul"
        "Bytes written since boot (cumulative counter)." .bytes
        |>.internalField |>.short "W",
    FieldInfo.new "read_count_cumul"
        "Read operations since boot (cumulative counter)." .number
        |>.internalField |>.short "IOR",
    FieldInfo.new "write_count_cumul"
        "Write operations since boot (cumulative counter)." .number
        |>.internalField |>.short "IOW",
    FieldInfo.new "read_bytes"
        "Bytes read per second (rate of psutil read_bytes counter)." .bytesPerSec
        |>.rateField |>.watchedHigh false |>.short "R/s",
    FieldInfo.new "write_bytes"
        "Bytes written per second (rate of psutil write_bytes counter)." .bytesPerSec
        |>.rateField |>.watchedHigh false |>.short "W/s",
    FieldInfo.new "alias"
        "Operator-defined display alias for the disk; present only when configured." .stringT,
    FieldInfo.new "hidden"
        ("Display-filter flag mirroring Glances v5's hide_zero filter. glances-rs filters " ++
          "interfaces/disks by name (removing them), so no value-based hiding applies and this " ++
          "is always false; emitted for payload-shape parity.") .bool
        |>.internalField ]

def networkFields : List FieldInfo :=
  [ FieldInfo.new "interface_name"
        "Network interface name." .stringT
        |>.pk,
    FieldInfo.new "bytes_recv"
        "Bytes received per second." .bytesPerSec
        |>.rateField |>.watchedHigh false |>.withDefaults 0.7 0.8 0.9
        |>.normalize "bytes_speed_rate_per_sec" |>.short "Rx/s",
    FieldInfo.new "bytes_sent"
        "Bytes sent per second." .bytesPerSec
        |>.rateField |>.watchedHigh false |>.withDefaults 0.7 0.8 0.9
        |>.normalize "bytes_speed_rate_per_sec" |>.short "Tx/s",
    FieldInfo.new "bytes_recv_cumul"
        "Bytes received since the interface came up (cumulative counter)." .bytes
        |>.internalField |>.short "Rx",
    FieldInfo.new "bytes_sent_cumul"
        "Bytes sent since the interface came up (cumulative counter)." .bytes
        |>.internalField |>.short "Tx",
    FieldInfo.new "errors_in"
        "Receive errors per second." .number
        |>.rateField,
    FieldInfo.new "errors_out"
        "Send errors per second." .number
        |>.rateField,
    FieldInfo.new "dropped_in"
        "Receive packets dropped per second." .number
        |>.rateField,
    FieldInfo.new "dropped_out"
        "Send packets dropped per second." .number
        |>.rateField,
    FieldInfo.new "bytes_all"
        "Total bytes received and sent per second (bytes_recv + bytes_sent)." .bytesPerSec
        |>.rateField,
    FieldInfo.new "alias"
        "Operator-defined display alias for the interface; present only when configured." .stringT,
    FieldInfo.new "is_up"
        "Whether the interface is up." .bool,
    FieldInfo.new "speed"
        "Maximum interface link speed in bits per second (0 when the OS does not report it)." .bitPerSec,
    FieldInfo.new "bytes_speed_rate_per_sec"
        ("Per-direction bandwidth capacity in bytes/s. Computed from net_if_stats().speed " ++
          "(Mbit/s), each direction getting the full link speed: speed_mbits * 1e6 / 8. Returns " ++
          "0 when the OS does not report a link speed (loopback, virtual interfaces) — in which " ++
          "case threshold normalisation is skipped for bytes_recv / bytes_sent.") .bytesPerSec,
    FieldInfo.new "hidden"
        ("Display-filter flag mirroring Glances v5's hide_zero filter. glances-rs filters " ++
          "interfaces/disks by name (removing them), so no value-based hiding applies and this " ++
          "is always false; emitted for payload-shape parity.") .bool
        |>.internalField ]

def fields : PluginId → List FieldInfo
  | .mem => memFields
  | .cpu => cpuFields
  | .load => loadFields
  | .network => networkFields
  | .system => systemFields
  | .uptime => uptimeFields
  | .memSwap => memswapFields
  | .fs => fsFields
  | .diskio => diskioFields

/-- The alertable subset: only these fields ever produce a level. -/
def alertFields (id : PluginId) : List FieldInfo :=
  (fields id).filter (·.watched)

theorem fields_nodup (id : PluginId) : ((fields id).map FieldInfo.field).Nodup := by
  cases id <;> decide +kernel

theorem alertFields_nodup (id : PluginId) : ((alertFields id).map FieldInfo.field).Nodup :=
  (fields_nodup id).sublist (List.filter_sublist.map _)

end GlancesRs
