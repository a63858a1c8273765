import Mathlib.Data.List.Nodup

namespace GlancesRs

inductive PluginId where
  | cpu | diskio | fs | load | mem | memSwap | network | system | uptime
deriving DecidableEq, Repr

namespace PluginId

def all : List PluginId :=
  [.cpu, .diskio, .fs, .load, .mem, .memSwap, .network, .system, .uptime]

def asStr : PluginId → String
  | .cpu => "cpu"
  | .diskio => "diskio"
  | .fs => "fs"
  | .load => "load"
  | .mem => "mem"
  | .memSwap => "memswap"
  | .network => "network"
  | .system => "system"
  | .uptime => "uptime"

def parse (name : String) : Option PluginId :=
  match name with
  | "cpu" => some .cpu
  | "diskio" => some .diskio
  | "fs" => some .fs
  | "load" => some .load
  | "mem" => some .mem
  | "memswap" => some .memSwap
  | "network" => some .network
  | "system" => some .system
  | "uptime" => some .uptime
  | _ => none

/-- Primary-key field of a collection plugin's items; `none` for scalar plugins. -/
def keyField : PluginId → Option String
  | .network => some "interface_name"
  | .fs => some "mnt_point"
  | .diskio => some "disk_name"
  | _ => none

@[simp] theorem parse_asStr (id : PluginId) : parse id.asStr = some id := by
  cases id <;> rfl

theorem parse_eq_some {name : String} {id : PluginId} : parse name = some id ↔ name = id.asStr := by
  constructor
  · intro parsed
    rw [parse.eq_def] at parsed
    split at parsed <;> cases parsed <;> rfl
  · rintro rfl
    exact parse_asStr id

theorem asStr_injective : Function.Injective asStr := by
  intro left right same
  have parsed := congrArg parse same
  simpa using parsed

theorem mem_all (id : PluginId) : id ∈ all := by
  cases id <;> decide

theorem all_nodup : all.Nodup := by
  decide

theorem names_nodup : (all.map asStr).Nodup := all_nodup.map asStr_injective

end PluginId

end GlancesRs
