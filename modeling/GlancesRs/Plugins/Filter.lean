import GlancesRs.Config.Model

namespace GlancesRs

open Data

/-! Construction of the plugins: the only part of them that can panic on a
configuration. What they collect is left to the operating system. -/

structure KeyFilter (crates : Crates) where
  «show» : List crates.Regex
  hide : List crates.Regex

/-- `none` where the `expect` on a pattern that does not compile panics. -/
def KeyFilter.new (crates : Crates) («show» hide : List String) : Option (KeyFilter crates) := do
  let compile (patterns : List String) := patterns.mapM fun pattern => (crates.regexNew pattern).toOption
  return { «show» := ← compile «show», hide := ← compile hide }

/-- Whether an item with this primary key appears in the output; `isMatch` is
`Regex::is_match`. -/
def KeyFilter.shown {crates : Crates} (isMatch : crates.Regex → String → Bool)
    (filter : KeyFilter crates) (key : String) : Bool :=
  let shown := filter.show.isEmpty || filter.show.any fun re => isMatch re key
  shown && !filter.hide.any fun re => isMatch re key

def hideOrDefault (userHide defaults : List String) : List String :=
  if userHide.isEmpty then defaults else userHide

/-- `CpuPlugin`, `LoadPlugin`, `MemPlugin`, `MemSwapPlugin`, `SystemPlugin` and
`UptimePlugin`. -/
structure ScalarPlugin where
  refresh : Duration

/-- `DiskioPlugin`, `FsPlugin` and `NetworkPlugin`. -/
structure CollectionPlugin (crates : Crates) where
  refresh : Duration
  filter : KeyFilter crates
  «alias» : HashMap String String

def ScalarPlugin.new (id : PluginId) (config : Config) : Option ScalarPlugin := do
  return { refresh := ← config.refreshFor id.asStr }

def CollectionPlugin.new (crates : Crates) (id : PluginId) (defaultHide : List String)
    (config : Config) : Option (CollectionPlugin crates) := do
  let plugin := config.plugins.lookup id.asStr
  let shows := (plugin.map PluginConfig.show).getD []
  let hide := hideOrDefault ((plugin.map PluginConfig.hide).getD []) defaultHide
  return {
    refresh := ← config.refreshFor id.asStr
    filter := ← KeyFilter.new crates shows hide
    «alias» := (plugin.map PluginConfig.alias).getD ∅ }

def CpuPlugin.new : Config → Option ScalarPlugin := ScalarPlugin.new .cpu

def LoadPlugin.new : Config → Option ScalarPlugin := ScalarPlugin.new .load

def MemPlugin.new : Config → Option ScalarPlugin := ScalarPlugin.new .mem

def MemSwapPlugin.new : Config → Option ScalarPlugin := ScalarPlugin.new .memSwap

def SystemPlugin.new : Config → Option ScalarPlugin := ScalarPlugin.new .system

def UptimePlugin.new : Config → Option ScalarPlugin := ScalarPlugin.new .uptime

def DiskioPlugin.new (crates : Crates) : Config → Option (CollectionPlugin crates) :=
  CollectionPlugin.new crates .diskio ["loop.*", "/dev/loop.*"]

def FsPlugin.new (crates : Crates) : Config → Option (CollectionPlugin crates) :=
  CollectionPlugin.new crates .fs ["/boot.*", ".*/snap.*"]

def NetworkPlugin.new (crates : Crates) : Config → Option (CollectionPlugin crates) :=
  CollectionPlugin.new crates .network ["docker.*", "lo"]

/-- The refresh period of the plugin `spawn_plugin` builds for `id`; `none`
where building it panics. -/
def spawnPlugin (crates : Crates) (config : Config) : PluginId → Option Duration
  | .cpu => ScalarPlugin.refresh <$> CpuPlugin.new config
  | .diskio => CollectionPlugin.refresh <$> DiskioPlugin.new crates config
  | .fs => CollectionPlugin.refresh <$> FsPlugin.new crates config
  | .load => ScalarPlugin.refresh <$> LoadPlugin.new config
  | .mem => ScalarPlugin.refresh <$> MemPlugin.new config
  | .memSwap => ScalarPlugin.refresh <$> MemSwapPlugin.new config
  | .network => CollectionPlugin.refresh <$> NetworkPlugin.new crates config
  | .system => ScalarPlugin.refresh <$> SystemPlugin.new config
  | .uptime => ScalarPlugin.refresh <$> UptimePlugin.new config

structure DefaultHideCompiles (crates : Crates) : Prop where
  diskio : ∀ pattern ∈ ["loop.*", "/dev/loop.*"], ∃ regex, crates.regexNew pattern = .ok regex
  fs : ∀ pattern ∈ ["/boot.*", ".*/snap.*"], ∃ regex, crates.regexNew pattern = .ok regex
  network : ∀ pattern ∈ ["docker.*", "lo"], ∃ regex, crates.regexNew pattern = .ok regex

section Construction

variable {crates : Crates} {config : Config} {patterns defaults : List String}

theorem compile_exists
    (compiles : ∀ pattern ∈ patterns, ∃ regex, crates.regexNew pattern = .ok regex) :
    ∃ regexes, patterns.mapM (fun pattern => (crates.regexNew pattern).toOption) = some regexes := by
  induction patterns with
  | nil => exact ⟨[], rfl⟩
  | cons pattern rest ih =>
      obtain ⟨regex, first⟩ := compiles pattern List.mem_cons_self
      obtain ⟨regexes, others⟩ := ih fun other member => compiles other (List.mem_cons_of_mem _ member)
      have head : (crates.regexNew pattern).toOption = some regex := by rw [first]; rfl
      exact ⟨regex :: regexes, by simp only [List.mapM_cons, head, others]; rfl⟩

theorem KeyFilter.new_exists {shows hide : List String}
    (showCompiles : ∀ pattern ∈ shows, ∃ regex, crates.regexNew pattern = .ok regex)
    (hideCompiles : ∀ pattern ∈ hide, ∃ regex, crates.regexNew pattern = .ok regex) :
    ∃ filter, KeyFilter.new crates shows hide = some filter := by
  obtain ⟨shown, showed⟩ := compile_exists showCompiles
  obtain ⟨hidden, hid⟩ := compile_exists hideCompiles
  exact ⟨⟨shown, hidden⟩, by simp [KeyFilter.new, showed, hid]⟩

theorem hideOrDefault_mem {userHide : List String} {pattern : String}
    (member : pattern ∈ hideOrDefault userHide defaults) :
    pattern ∈ userHide ∨ pattern ∈ defaults := by
  rw [hideOrDefault] at member
  split at member
  · exact .inr member
  · exact .inl member

theorem CollectionPlugin.new_refresh {id : PluginId}
    (defaultCompiles : ∀ pattern ∈ defaults, ∃ regex, crates.regexNew pattern = .ok regex)
    (declaredCompiles : ∀ plugin, config.plugins.lookup id.asStr = some plugin →
      ∀ pattern ∈ plugin.show ++ plugin.hide, ∃ regex, crates.regexNew pattern = .ok regex) :
    CollectionPlugin.refresh <$> CollectionPlugin.new crates id defaults config =
      config.refreshFor id.asStr := by
  obtain ⟨filter, built⟩ : ∃ filter, KeyFilter.new crates
      (((config.plugins.lookup id.asStr).map PluginConfig.show).getD [])
      (hideOrDefault (((config.plugins.lookup id.asStr).map PluginConfig.hide).getD []) defaults) =
        some filter := by
    apply KeyFilter.new_exists
    · intro pattern member
      cases found : config.plugins.lookup id.asStr with
      | none => simp [found] at member
      | some plugin => exact declaredCompiles plugin found pattern (by simp_all)
    · intro pattern member
      rcases hideOrDefault_mem member with declared | default
      · cases found : config.plugins.lookup id.asStr with
        | none => simp [found] at declared
        | some plugin => exact declaredCompiles plugin found pattern (by simp_all)
      · exact defaultCompiles pattern default
  cases timed : config.refreshFor id.asStr with
  | none => simp [CollectionPlugin.new, timed]
  | some refresh => simp [CollectionPlugin.new, timed, built]

theorem ScalarPlugin.new_refresh (id : PluginId) :
    ScalarPlugin.refresh <$> ScalarPlugin.new id config = config.refreshFor id.asStr := by
  cases timed : config.refreshFor id.asStr <;> simp [ScalarPlugin.new, timed]

end Construction

end GlancesRs
