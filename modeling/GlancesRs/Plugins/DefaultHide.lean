import GlancesRs.Data.Pattern
import GlancesRs.Plugins.Filter

namespace GlancesRs

open Data

/-! What the default hide lists remove. The patterns are searched for anywhere in a
key, so they hide every key that has their words inside. -/

/-- What `regex_lite` documents of a compiled pattern: `is_match` searches for it
anywhere in the text. -/
structure SearchesPatterns (crates : Crates) (isMatch : crates.Regex → String → Bool) : Prop where
  searches : ∀ (source : String) pattern regex, Pattern.parse source.toList = some pattern →
    crates.regexNew source = .ok regex →
    ∀ key : String, isMatch regex key = true ↔ pattern.Occurs key.toList

/-- Neither `show` nor `hide` is configured for the plugin. -/
def ListsUnset (config : Config) (id : PluginId) : Prop :=
  ∀ settings, config.plugins.lookup id.asStr = some settings →
    settings.show = [] ∧ settings.hide = []

/-- The pattern occurs where `word` stands, whatever surrounds it. -/
def SearchesFor (source word : String) : Prop :=
  ∃ pattern, Pattern.parse source.toList = some pattern ∧
    ∀ text, pattern.Occurs text ↔ word.toList <:+: text

variable {crates : Crates} {isMatch : crates.Regex → String → Bool} {config : Config}
variable {id : PluginId} {plugin : CollectionPlugin crates} {defaults words : List String}
variable {key : String}

theorem any_compiled {regexes : List crates.Regex} (documented : SearchesPatterns crates isMatch)
    (searched : List.Forall₂ SearchesFor defaults words)
    (compiled : defaults.mapM (fun source => (crates.regexNew source).toOption) = some regexes) :
    (regexes.any fun regex => isMatch regex key) = true ↔
      ∃ word ∈ words, word.toList <:+: key.toList := by
  induction searched generalizing regexes with
  | nil =>
      cases compiled
      simp
  | @cons source word rest others first later ih =>
      obtain ⟨pattern, parsed, occurs⟩ := first
      simp only [List.mapM_cons, Option.bind_eq_bind, Option.bind_eq_some_iff, Option.pure_def,
        Option.some.injEq] at compiled
      obtain ⟨regex, made, tail, compiled, rfl⟩ := compiled
      cases ended : crates.regexNew source with
      | error reason =>
          rw [ended] at made
          cases made
      | ok other =>
          rw [ended] at made
          cases made
          rw [List.any_cons, Bool.or_eq_true, documented.searches source pattern regex parsed ended,
            occurs, ih compiled]
          simp

theorem CollectionPlugin.new_filter (unset : ListsUnset config id)
    (built : CollectionPlugin.new crates id defaults config = some plugin) :
    plugin.filter.show = [] ∧
      defaults.mapM (fun source => (crates.regexNew source).toOption) = some plugin.filter.hide := by
  have empty (list : PluginConfig → List String) (none_listed : ∀ settings,
      config.plugins.lookup id.asStr = some settings → list settings = []) :
      ((config.plugins.lookup id.asStr).map list).getD [] = [] := by
    cases found : config.plugins.lookup id.asStr with
    | none => rfl
    | some settings => exact none_listed settings found
  have shows := empty PluginConfig.show fun settings found => (unset settings found).1
  have hides := empty PluginConfig.hide fun settings found => (unset settings found).2
  have listed : hideOrDefault [] defaults = defaults := rfl
  simp only [CollectionPlugin.new, shows, hides, listed, KeyFilter.new, List.mapM_nil,
    Option.bind_eq_bind, Option.pure_def, Option.bind_some, Option.bind_eq_some_iff,
    Option.some.injEq] at built
  obtain ⟨refresh, _, filter, ⟨hide, compiled, rfl⟩, rfl⟩ := built
  exact ⟨rfl, compiled⟩

/-- Without lists of the operator's own, what is hidden is what has a word of the
defaults inside. -/
theorem hidden_iff (documented : SearchesPatterns crates isMatch) (unset : ListsUnset config id)
    (searched : List.Forall₂ SearchesFor defaults words)
    (built : CollectionPlugin.new crates id defaults config = some plugin) :
    plugin.filter.shown isMatch key = false ↔ ∃ word ∈ words, word.toList <:+: key.toList := by
  obtain ⟨shows, compiled⟩ := CollectionPlugin.new_filter unset built
  rw [← any_compiled documented searched compiled]
  simp [KeyFilter.shown, shows]

theorem searchesFor_word {word : String}
    (parsed : Pattern.parse word.toList = some (.literal word.toList)) : SearchesFor word word :=
  ⟨_, parsed, fun _ => Pattern.occurs_literal⟩

theorem searchesFor_wordStar {source word : String}
    (parsed : Pattern.parse source.toList = some (Pattern.literal word.toList ++ [⟨.any, true⟩])) :
    SearchesFor source word :=
  ⟨_, parsed, fun _ => Pattern.occurs_concat_star.trans Pattern.occurs_literal⟩

theorem searchesFor_starWordStar {source word : String}
    (parsed : Pattern.parse source.toList =
      some (⟨.any, true⟩ :: (Pattern.literal word.toList ++ [⟨.any, true⟩]))) :
    SearchesFor source word :=
  ⟨_, parsed, fun _ => Pattern.occurs_star_cons.trans
    (Pattern.occurs_concat_star.trans Pattern.occurs_literal)⟩

theorem network_searched : List.Forall₂ SearchesFor ["docker.*", "lo"] ["docker", "lo"] :=
  .cons (searchesFor_wordStar (by decide +kernel)) (.cons (searchesFor_word (by decide +kernel)) .nil)

theorem diskio_searched :
    List.Forall₂ SearchesFor ["loop.*", "/dev/loop.*"] ["loop", "/dev/loop"] :=
  .cons (searchesFor_wordStar (by decide +kernel)) (.cons (searchesFor_wordStar (by decide +kernel)) .nil)

theorem fs_searched : List.Forall₂ SearchesFor ["/boot.*", ".*/snap.*"] ["/boot", "/snap"] :=
  .cons (searchesFor_wordStar (by decide +kernel)) (.cons (searchesFor_starWordStar (by decide +kernel)) .nil)

/-- What hides everything it should hides exactly that where it hides nothing else. -/
theorem iff_iff_imp_of_imp {hidden named : Prop} (enough : named → hidden) :
    (hidden ↔ named) ↔ (hidden → named) :=
  ⟨Iff.mp, fun nothingElse => ⟨nothingElse, enough⟩⟩

/-- The default lists hide what they name exactly as long as a key has no word of
theirs inside that it is not named by. -/
theorem defaultHide_iff (documented : SearchesPatterns crates isMatch) (key : String) :
    (∀ plugin, ListsUnset config .network → NetworkPlugin.new crates config = some plugin →
      ((plugin.filter.shown isMatch key = false ↔ key = "lo" ∨ "docker".toList <+: key.toList) ↔
        ("docker".toList <:+: key.toList ∨ "lo".toList <:+: key.toList →
          key = "lo" ∨ "docker".toList <+: key.toList))) ∧
    (∀ plugin, ListsUnset config .diskio → DiskioPlugin.new crates config = some plugin →
      ((plugin.filter.shown isMatch key = false ↔
          "loop".toList <+: key.toList ∨ "/dev/loop".toList <+: key.toList) ↔
        ("loop".toList <:+: key.toList →
          "loop".toList <+: key.toList ∨ "/dev/loop".toList <+: key.toList))) ∧
    ∀ plugin, ListsUnset config .fs → FsPlugin.new crates config = some plugin →
      ((plugin.filter.shown isMatch key = false ↔
          "/boot".toList <+: key.toList ∨ "/snap".toList <:+: key.toList) ↔
        ("/boot".toList <:+: key.toList →
          "/boot".toList <+: key.toList ∨ "/snap".toList <:+: key.toList)) := by
  refine ⟨fun plugin unset built => ?_, fun plugin unset built => ?_, fun plugin unset built => ?_⟩
  · rw [hidden_iff documented unset network_searched built]
    simp only [List.mem_cons, List.not_mem_nil, or_false, exists_eq_or_imp, exists_eq_left]
    apply iff_iff_imp_of_imp
    intro named
    rcases named with rfl | leading
    · exact .inr (List.infix_refl _)
    · exact .inl leading.isInfix
  · rw [hidden_iff documented unset diskio_searched built]
    simp only [List.mem_cons, List.not_mem_nil, or_false, exists_eq_or_imp, exists_eq_left]
    have shorter : "loop".toList <:+: "/dev/loop".toList := by decide
    rw [iff_iff_imp_of_imp (Or.imp List.IsPrefix.isInfix List.IsPrefix.isInfix), or_imp]
    apply and_iff_left_of_imp
    intro whole inside
    exact whole (shorter.trans inside)
  · rw [hidden_iff documented unset fs_searched built]
    simp only [List.mem_cons, List.not_mem_nil, or_false, exists_eq_or_imp, exists_eq_left]
    rw [iff_iff_imp_of_imp (Or.imp_left List.IsPrefix.isInfix), or_imp]
    exact and_iff_left .inr

/-- The crates, with the fragment's own search for `regex_lite`. -/
def patternCrates : Crates where
  tomlFromStr _ := .error ⟨""⟩
  Regex := Pattern
  regexNew source :=
    match Pattern.parse source.toList with
    | some pattern => .ok pattern
    | none => .error ⟨""⟩
  displayF64 _ := ""
  debugStr text := text

def patternIsMatch (pattern : patternCrates.Regex) (key : String) : Bool :=
  Pattern.search pattern key.toList

theorem patternCrates_searches : SearchesPatterns patternCrates patternIsMatch := by
  constructor
  intro source pattern regex parsed made key
  simp only [patternCrates, parsed] at made
  cases made
  exact Pattern.search_iff

theorem ethernet_defaultHide :
    ∃ plugin, NetworkPlugin.new patternCrates {} = some plugin ∧
      plugin.filter.shown patternIsMatch "eth0" = true := by
  obtain ⟨plugin, built⟩ := Option.isSome_iff_exists.mp (show
    (NetworkPlugin.new patternCrates {}).isSome = true by decide +kernel)
  have exactly := (defaultHide_iff patternCrates_searches "eth0").1 plugin
    (fun settings found => by cases found) built
  have apart : ("docker".toList <:+: "eth0".toList ∨ "lo".toList <:+: "eth0".toList →
      ("eth0" : String) = "lo" ∨ "docker".toList <+: "eth0".toList) := by decide
  refine ⟨plugin, built, Bool.eq_true_of_not_eq_false fun hidden => ?_⟩
  have named := (exactly.mpr apart).mp hidden
  revert named
  decide

/-- A wireless interface, a disk and a mount point that only contain a word of the
lists are hidden. -/
theorem containedWord_hidden :
    ((NetworkPlugin.new patternCrates {}).map fun plugin =>
        plugin.filter.shown patternIsMatch "wlo1") = some false ∧
      ¬ (("wlo1" : String) = "lo" ∨ "docker".toList <+: "wlo1".toList) ∧
    ((DiskioPlugin.new patternCrates {}).map fun plugin =>
        plugin.filter.shown patternIsMatch "dm-loop0") = some false ∧
      ¬ ("loop".toList <+: "dm-loop0".toList ∨ "/dev/loop".toList <+: "dm-loop0".toList) ∧
    ((FsPlugin.new patternCrates {}).map fun plugin =>
        plugin.filter.shown patternIsMatch "/mnt/boot") = some false ∧
      ¬ ("/boot".toList <+: "/mnt/boot".toList ∨ "/snap".toList <:+: "/mnt/boot".toList) := by
  decide +kernel

end GlancesRs
