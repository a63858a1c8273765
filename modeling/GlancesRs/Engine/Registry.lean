import GlancesRs.Config.Validated
import GlancesRs.Engine.Moves

namespace GlancesRs

open Data

/-! The registry is the single source of truth: its entry is the receiver of
the one loop that has not removed itself. -/

variable {setup : Setup} {engine after : Engine} {l other r : ℕ} {loop moved : Loop}
variable {request movedRequest : PluginRequest}

/-- Loop `l` has been spawned and has not removed itself. -/
def Engine.Live (engine : Engine) (l : ℕ) : Prop :=
  ∃ loop, engine.loops[l]? = some loop ∧ loop.phase ≠ .stopped

section Updates

theorem Engine.loops_setLoop (found : engine.loops[l]? = some loop) :
    (engine.setLoop l moved).loops[other]? =
      if other = l then some moved else engine.loops[other]? := by
  have inside : l < engine.loops.length := (List.getElem?_eq_some_iff.mp found).1
  by_cases same : other = l
  · subst same
    simp [setLoop, inside]
  · simp [setLoop, same, Ne.symm same]

@[simp] theorem Engine.length_setLoop :
    (engine.setLoop l moved).loops.length = engine.loops.length := by
  simp [setLoop]

theorem Engine.loops_spawn {refresh : Duration} :
    (engine.spawn refresh).loops[other]? =
      if other = engine.loops.length then some { refresh } else engine.loops[other]? := by
  rcases Nat.lt_trichotomy other engine.loops.length with old | rfl | beyond
  · simp [spawn, List.getElem?_append_left old, old.ne]
  · simp [spawn]
  · have outside : (engine.spawn refresh).loops.length ≤ other := by
      simp only [spawn, List.length_append, List.length_singleton]
      omega
    rw [if_neg beyond.ne', List.getElem?_eq_none outside, List.getElem?_eq_none beyond.le]

theorem Engine.requests_setRequest {kept : PluginRequest → Prop}
    (holds : ∀ request ∈ engine.requests, kept request) (holdsMoved : kept movedRequest) :
    ∀ request ∈ (engine.setRequest r movedRequest).requests, kept request := by
  intro request member
  rcases List.mem_or_eq_of_mem_set member with former | rfl
  · exact holds request former
  · exact holdsMoved

theorem LoopMove.live (move : LoopMove setup engine loop moved) :
    loop.phase ≠ .stopped ∧ moved.phase ≠ .stopped := by
  cases move <;> simp_all

theorem Engine.live_setLoop (found : engine.loops[l]? = some loop) (before : loop.phase ≠ .stopped)
    (after : moved.phase ≠ .stopped) : (engine.setLoop l moved).Live other ↔ engine.Live other := by
  unfold Live
  rw [loops_setLoop found]
  by_cases same : other = l
  · subst same
    simp [found, before, after]
  · simp [same]

theorem Engine.live_spawn {refresh : Duration} :
    (engine.spawn refresh).Live other ↔ other = engine.loops.length ∨ engine.Live other := by
  unfold Live
  rw [loops_spawn]
  by_cases new : other = engine.loops.length
  · simp [new]
  · simp [new]

end Updates

/-- The entry is the receiver of the live loop, which is the last one spawned. -/
structure Engine.Registered (engine : Engine) : Prop where
  entry : ∀ l, engine.collectors = some ⟨⟨l⟩⟩ ↔ engine.Live l
  latest : ∀ l, engine.Live l → l + 1 = engine.loops.length

theorem Engine.Registered.congr (registered : engine.Registered)
    (collectors : after.collectors = engine.collectors) (loops : after.loops = engine.loops) :
    after.Registered where
  entry l := by
    rw [collectors, registered.entry]
    simp only [Live, loops]
  latest l live := by
    rw [loops]
    exact registered.latest l (by simpa only [Live, loops] using live)

theorem Engine.Registered.setLoop (registered : engine.Registered)
    (found : engine.loops[l]? = some loop) (before : loop.phase ≠ .stopped)
    (after : moved.phase ≠ .stopped) : (engine.setLoop l moved).Registered where
  entry other := (registered.entry other).trans (live_setLoop found before after).symm
  latest other live := by
    rw [length_setLoop]
    exact registered.latest other ((live_setLoop found before after).mp live)

theorem Engine.Registered.spawn {refresh : Duration} (registered : engine.Registered)
    (inactive : engine.collectors = none) : (engine.spawn refresh).Registered := by
  have idle : ∀ l, ¬ engine.Live l := by
    intro l live
    have entered := (registered.entry l).mpr live
    rw [inactive] at entered
    cases entered
  constructor
  · intro other
    rw [live_spawn]
    simp [Engine.spawn, idle, eq_comm]
  · intro other live
    rcases live_spawn.mp live with rfl | former
    · simp [Engine.spawn]
    · exact absurd former (idle other)

theorem Engine.Registered.remove (registered : engine.Registered)
    (found : engine.loops[l]? = some loop) (before : loop.phase ≠ .stopped) :
    (({ engine with collectors := none } : Engine).setLoop l
      { loop with phase := .stopped }).Registered := by
  have alone := (registered.entry l).mpr ⟨loop, found, before⟩
  have idle : ∀ other, ¬ (({ engine with collectors := none } : Engine).setLoop l
      { loop with phase := .stopped }).Live other := by
    intro other live
    obtain ⟨last, known, running⟩ := live
    have same : ({ engine with collectors := none } : Engine).loops[l]? = some loop := found
    rw [loops_setLoop same] at known
    split at known
    · cases known
      exact running rfl
    · rename_i different
      have second := (registered.entry other).mpr ⟨last, known, running⟩
      rw [alone] at second
      cases second
      exact different rfl
  exact ⟨fun other => iff_of_false (by simp [Engine.setLoop]) (idle other),
    fun other live => absurd live (idle other)⟩

section Steps

variable [NumberText] {action : Action}

theorem Moves.registered (moves : Moves setup engine action after) (registered : engine.Registered) :
    after.Registered := by
  cases moves with
  | ticked | refused | touched | joined | request | observedOther =>
      exact registered.congr rfl rfl
  | spawned _ _ _ inactive _ => exact (registered.spawn inactive).congr rfl rfl
  | loop found move => exact registered.setLoop found move.live.1 move.live.2
  | @observed _ _ _ _ out found at_ _ =>
      have recorded : (engine.record out).Registered := registered.congr rfl rfl
      exact recorded.setLoop found (by simp [at_]) (by simp)
  | @published l _ body found at_ =>
      have stored : ({ engine with store := some ⟨body, l⟩ } : Engine).Registered :=
        registered.congr rfl rfl
      exact stored.setLoop found (by simp [at_]) (by simp)
  | removed found at_ _ _ => exact registered.remove found (by simp [at_])

theorem registered_of_reachable (reachable : (engineSystem setup).Reachable engine) :
    engine.Registered := by
  refine reachable.invariant ⟨fun l => ?_, ?_⟩ fun before action after registered taken =>
    (Engine.step_moves taken).registered registered
  · simp [engineSystem, Engine.Live]
  · simp [engineSystem, Engine.Live]

structure Engine.Dormant (engine : Engine) : Prop where
  collectors : engine.collectors = none
  loops : engine.loops = []
  store : engine.store = none
  requests : ∀ request ∈ engine.requests, request.phase = .done .notRegistered

theorem Moves.dormant (disabled : setup.config.pluginEnabled setup.id.asStr = false)
    (moves : Moves setup engine action after) (dormant : engine.Dormant) : after.Dormant := by
  have refused : ∀ {r : ℕ} {request : PluginRequest}, engine.requests[r]? = some request →
      request.phase = .done .notRegistered :=
    fun found => dormant.requests _ (List.mem_of_getElem? found)
  have empty : ∀ {l : ℕ} {loop : Loop}, engine.loops[l]? ≠ some loop := by simp [dormant.loops]
  cases moves with
  | ticked | observedOther =>
      exact ⟨dormant.collectors, dormant.loops, dormant.store, dormant.requests⟩
  | refused =>
      refine ⟨dormant.collectors, dormant.loops, dormant.store, List.forall_mem_append.mpr ?_⟩
      exact ⟨dormant.requests, List.forall_mem_singleton.mpr rfl⟩
  | touched enabled => simp [disabled] at enabled
  | joined found at_ | spawned found at_ => simp [refused found] at at_
  | request found move =>
      have finished := refused found
      cases move <;> simp_all
  | loop found | observed found | published found | removed found => exact absurd found empty

theorem dormant_of_reachable (disabled : setup.config.pluginEnabled setup.id.asStr = false)
    (reachable : (engineSystem setup).Reachable engine) : engine.Dormant := by
  refine reachable.invariant ⟨rfl, rfl, rfl, ?_⟩ fun before action after dormant taken =>
    (Engine.step_moves taken).dormant disabled dormant
  simp [engineSystem]

/-- In every interleaving there is an entry exactly when there is exactly one
live loop, whose receiver it holds; a disabled plugin never has anything. -/
theorem registry_holds_live_loop (reachable : (engineSystem setup).Reachable engine) :
    (engine.collectors.isSome ↔ ∃! l, engine.Live l) ∧
      (∀ first second, engine.Live first → engine.Live second → first = second) ∧
      (∀ collector, engine.collectors = some collector → engine.Live collector.ready.channel) ∧
      (setup.config.pluginEnabled setup.id.asStr = false →
        engine.collectors = none ∧ engine.loops = [] ∧ engine.store = none) := by
  have registered := registered_of_reachable reachable
  have alone : ∀ first second, engine.Live first → engine.Live second → first = second := by
    intro first second live₁ live₂
    have last₁ := registered.latest first live₁
    have last₂ := registered.latest second live₂
    omega
  have active : ∀ collector, engine.collectors = some collector →
      engine.Live collector.ready.channel :=
    fun collector entered => (registered.entry _).mp entered
  refine ⟨?_, alone, active, fun disabled => ?_⟩
  · rw [Option.isSome_iff_exists]
    constructor
    · intro active
      obtain ⟨collector, entered⟩ := active
      exact ⟨_, active collector entered, fun l live => alone l _ live (active collector entered)⟩
    · intro single
      obtain ⟨l, live, _⟩ := single
      exact ⟨_, (registered.entry l).mpr live⟩
  · have dormant := dormant_of_reachable disabled reachable
    exact ⟨dormant.collectors, dormant.loops, dormant.store⟩

end Steps

def defaultMemory : Setup where
  crates := .ofDocument "" {}
  config := {}
  hostname := "h"
  id := .mem

theorem defaultMemory_registry_holds_live_loop :
    ∃ engine, (@engineSystem .integers defaultMemory).run (@engineSystem .integers defaultMemory).init
      [.arrive, .lookup 0] = some engine ∧ ∃! l, engine.Live l := by
  have woken : ((@engineSystem .integers defaultMemory).run
      (@engineSystem .integers defaultMemory).init [.arrive, .lookup 0]).map
        (fun engine => engine.collectors.isSome) = some true := by
    decide +kernel
  obtain ⟨engine, ran, entered⟩ := Option.map_eq_some_iff.mp woken
  exact ⟨engine, ran, (@registry_holds_live_loop _ _ .integers ⟨_, ran⟩).1.mp entered⟩

end GlancesRs
