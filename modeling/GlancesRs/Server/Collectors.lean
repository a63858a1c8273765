import GlancesRs.Engine.Phases
import GlancesRs.Server.Projection

namespace GlancesRs

open Data

/-! The registry of all plugins at once: one mutex, and as many entries as there
are loops running. -/

variable {setup : ServerSetup} {app after : AppState} {id other : PluginId} {l : ℕ}

/-- Loop `l` holds the registry lock. -/
def Engine.Rechecks (engine : Engine) (l : ℕ) : Prop :=
  ∃ loop, engine.loops[l]? = some loop ∧ loop.phase = .rechecking

def AppState.Holds (app : AppState) (holder : PluginId × ℕ) : Prop :=
  (app.engine holder.1).Rechecks holder.2

def Loop.running (loop : Loop) : Bool :=
  match loop.phase with
  | .stopped => false
  | _ => true

def AppState.runningLoops (app : AppState) : ℕ :=
  (PluginId.all.map fun id => (app.loops id).countP Loop.running).sum

section Lock

variable {single : Setup} {engine next : Engine} {action : Action}

theorem Engine.lockHeld_iff : engine.lockHeld = true ↔ ∃ l, engine.Rechecks l := by
  simp only [lockHeld, List.any_eq_true, Rechecks]
  constructor
  · intro held
    obtain ⟨loop, member, holding⟩ := held
    obtain ⟨l, found⟩ := List.mem_iff_getElem?.mp member
    refine ⟨l, loop, found, ?_⟩
    split at holding
    · assumption
    · cases holding
  · intro held
    obtain ⟨l, loop, found, at_⟩ := held
    exact ⟨loop, List.mem_of_getElem? found, by rw [at_]⟩

theorem AppState.lockHeld_iff : app.lockHeld = true ↔ ∃ holder, app.Holds holder := by
  simp only [lockHeld, List.any_eq_true, Engine.lockHeld_iff]
  constructor
  · intro held
    obtain ⟨id, _, l, rechecks⟩ := held
    exact ⟨(id, l), rechecks⟩
  · intro held
    obtain ⟨⟨id, l⟩, rechecks⟩ := held
    exact ⟨id, id.mem_all, l, rechecks⟩

theorem Engine.Rechecks.congr (rechecks : next.Rechecks l) (same : next.loops = engine.loops) :
    engine.Rechecks l := by
  rw [Rechecks] at rechecks ⊢
  rw [← same]
  exact rechecks

/-- Only a loop that takes the lock comes to hold it. -/
theorem Engine.step_rechecks [NumberText] (taken : engine.step single action = some next)
    (rechecks : next.Rechecks l) : engine.Rechecks l ∨ action = .lock l := by
  obtain ⟨loop, known, at_⟩ := rechecks
  rcases step_phase taken known with former | enters
  · exact .inl ⟨loop, former, at_⟩
  · rw [at_] at enters
    exact .inr enters

end Lock

section Steps

variable {action : ServerAction} {holder : PluginId × ℕ}

theorem AppState.loops_setEngine {next : Engine} (same : next.loops = app.loops other) :
    (app.setEngine other next).loops id = app.loops id := by
  change Function.update app.loops other next.loops id = app.loops id
  rw [same, Function.update_eq_self]

theorem AppState.loops_ensurePlugin : (app.ensurePlugin setup other).loops id = app.loops id :=
  loops_setEngine Engine.loops_ensurePlugin

theorem AppState.loops_dropRequest {r : ℕ} : (app.dropRequest other r).loops id = app.loops id := by
  rw [dropRequest]
  cases dropped : (app.engine other).drop r with
  | none => rfl
  | some next => exact loops_setEngine (Engine.loops_drop dropped)

theorem AppState.loops_dropTasks (tasks : List (PluginId × Option ℕ)) :
    (app.dropTasks tasks).loops id = app.loops id := by
  induction tasks generalizing app with
  | nil => rfl
  | cons task rest ih =>
      rw [dropTasks, List.foldl_cons]
      refine ih.trans ?_
      cases task.2 with
      | none => rfl
      | some r => exact loops_dropRequest

theorem AppState.loops_setEngine_of_ne {next : Engine} (different : id ≠ other) :
    (app.setEngine other next).loops id = app.loops id := by
  simp [setEngine, Function.update_of_ne different]

variable [NumberText]

/-- Nothing but a step of its own tasks changes the loops of a plugin. -/
theorem ServerMove.loops (move : ServerMove setup app action after) (id : PluginId) :
    after.loops id = app.loops id ∨ ∃ own next, action = .work id own ∧
      (app.engine id).step (setup.plugin id) own = some next ∧ after.loops id = next.loops ∧
      ((∃ l, own = .lock l) → app.lockHeld = false) := by
  cases move with
  | ticked | refused | answered | spread | joined | pluginReplied | allReplied => exact .inl rfl
  | ensured | started => exact .inl AppState.loops_ensurePlugin
  | @worked other own next stepped _ _ _ _ free =>
      by_cases same : id = other
      · subst same
        refine .inr ⟨own, next, rfl, stepped, ?_, fun locks => free (.inr locks)⟩
        simp [AppState.setEngine]
      · exact .inl (AppState.loops_setEngine_of_ne same)
  | pluginAbandoned => exact .inl AppState.loops_dropRequest
  | allAbandoned => exact .inl (AppState.loops_dropTasks _)

theorem ServerMove.holds (move : ServerMove setup app action after) (holds : after.Holds holder) :
    app.Holds holder ∨ (app.lockHeld = false ∧ action = .work holder.1 (.lock holder.2)) := by
  rcases move.loops holder.1 with same | ⟨own, next, rfl, stepped, same, free⟩
  · exact .inl (holds.congr same)
  · rcases Engine.step_rechecks stepped (holds.congr same) with former | rfl
    · exact .inl former
    · exact .inr ⟨free ⟨_, rfl⟩, rfl⟩

/-- At most one loop of all plugins is inside the lock. -/
theorem holder_unique (reachable : (serverSystem setup).Reachable app) :
    ∀ first second, app.Holds first → app.Holds second → first = second := by
  refine @TransitionSystem.Reachable.invariant _ _ (serverSystem setup)
    (fun app => ∀ first second, app.Holds first → app.Holds second → first = second) app
    (fun first second holds => ?_) (fun before action after alone taken first second held other => ?_)
    reachable
  · obtain ⟨loop, found, _⟩ := holds
    simp [serverSystem, AppState.engine] at found
  · have move := AppState.step_moves taken
    have holding : ∀ {holder}, before.lockHeld = false → ¬ before.Holds holder := by
      intro holder free holds
      simp [AppState.lockHeld_iff.mpr ⟨holder, holds⟩] at free
    rcases move.holds held with former | ⟨free, locks⟩ <;>
      rcases move.holds other with formerOther | ⟨free', locks'⟩
    · exact alone first second former formerOther
    · exact absurd former (holding free')
    · exact absurd formerOther (holding free)
    · rw [locks] at locks'
      cases first
      cases second
      cases locks'
      rfl

end Steps

section Counting

theorem Loop.running_iff {loop : Loop} : loop.running = true ↔ loop.phase ≠ .stopped := by
  cases at_ : loop.phase <;> simp [running, at_]

theorem Engine.Registered.countP_running {engine : Engine} (registered : engine.Registered) :
    engine.loops.countP Loop.running = if engine.collectors.isSome then 1 else 0 := by
  cases entered : engine.collectors with
  | none =>
      refine List.countP_eq_zero.mpr fun loop member runs => ?_
      obtain ⟨l, found⟩ := List.mem_iff_getElem?.mp member
      have live := (registered.entry l).mpr ⟨loop, found, Loop.running_iff.mp runs⟩
      simp [entered] at live
  | some collector =>
      obtain ⟨⟨l⟩⟩ := collector
      have live := (registered.entry l).mp entered
      have last := registered.latest l live
      obtain ⟨loop, found, runs⟩ := live
      obtain ⟨inside, at_⟩ := List.getElem?_eq_some_iff.mp found
      have split : engine.loops = engine.loops.take l ++ [loop] := by
        rw [← at_, List.take_append_getElem, List.take_of_length_le (by omega)]
      have stopped : (engine.loops.take l).countP Loop.running = 0 := by
        refine List.countP_eq_zero.mpr fun other member runs => ?_
        obtain ⟨k, early, rfl⟩ := List.mem_take_iff_getElem.mp member
        have late := registered.latest k ⟨_, List.getElem?_eq_getElem _, Loop.running_iff.mp runs⟩
        omega
      rw [split, List.countP_append, stopped]
      simp [Loop.running_iff.mpr runs]

/-- Counting what a predicate holds of is adding ones. -/
theorem sum_map_ite {α : Type} (ids : List α) (holds : α → Bool) :
    (ids.map fun id => if holds id then 1 else 0).sum = (ids.filter holds).length := by
  induction ids with
  | nil => rfl
  | cons id rest ih => cases counted : holds id <;> simp [counted, ih, Nat.add_comm]

variable [NumberText]

/-- The entries of the registry are counted by the loops running, at most one for
each registered plugin. No two tasks are ever inside its lock: while a loop is, no other
takes it and no request gets to look anything up. -/
theorem activeCollectors_exact (reachable : (serverSystem setup).Reachable app) :
    app.activeCollectors = app.runningLoops ∧
      (∀ id, (app.loops id).countP Loop.running ≤ 1) ∧
      app.activeCollectors ≤ (PluginId.all.filter (isRegistered setup.config)).length ∧
      (∀ first second, app.Holds first → app.Holds second → first = second) ∧
      ∀ holder, app.Holds holder → ∀ id, (∀ r, app.step setup (.work id (.lookup r)) = none) ∧
        ∀ l, app.step setup (.work id (.lock l)) = none := by
  have running : ∀ id, (app.loops id).countP Loop.running =
      if (app.collectors id).isSome then 1 else 0 :=
    fun id => (registered_of_reachable (engine_reachable reachable id)).countP_running
  have registered : ∀ id, (app.collectors id).isSome = true → isRegistered setup.config id = true := by
    intro id active
    by_contra disabled
    have off : (setup.plugin id).config.pluginEnabled (setup.plugin id).id.asStr = false :=
      Bool.eq_false_of_not_eq_true disabled
    have dormant := dormant_of_reachable off (engine_reachable reachable id)
    have none : app.collectors id = none := dormant.collectors
    simp [none] at active
  refine ⟨?_, fun id => ?_, ?_, holder_unique reachable, fun holder holds id => ?_⟩
  · rw [AppState.runningLoops, AppState.activeCollectors, ← sum_map_ite]
    exact congrArg List.sum (List.map_congr_left fun id _ => (running id).symm)
  · rw [running id]
    split <;> simp
  · rw [AppState.activeCollectors, ← List.countP_eq_length_filter, ← List.countP_eq_length_filter]
    exact List.countP_mono_left fun id _ => registered id
  · have held : app.lockHeld = true := AppState.lockHeld_iff.mpr ⟨holder, holds⟩
    exact ⟨fun r => by simp [AppState.step, AppState.work, held],
      fun l => by simp [AppState.step, AppState.work, held]⟩

end Counting

/-- The default configuration, which listens on loopback without a password. -/
def defaultServer : ServerSetup where
  crates := .ofDocument "" {}
  security := .decoding "" ""
  config := {}
  hostname := "h"

def twoWoken : List ServerAction :=
  [.receive (.plugin "mem") { headers := [] }, .work .mem (.lookup 0), .receive .all { headers := [] },
    .startTask 1 4, .startTask 1 6, .work .mem (.lookup 1), .work .network (.lookup 0)]

theorem twoWoken_activeCollectors :
    ∃ app, (@serverSystem .integers defaultServer).run (@serverSystem .integers defaultServer).init
      twoWoken = some app ∧ app.runningLoops = 2 := by
  have woken : ((@serverSystem .integers defaultServer).run
      (@serverSystem .integers defaultServer).init twoWoken).map AppState.activeCollectors = some 2 := by
    decide +kernel
  obtain ⟨app, ran, two⟩ := Option.map_eq_some_iff.mp woken
  have counted := (@activeCollectors_exact defaultServer app .integers ⟨_, ran⟩).1
  exact ⟨app, ran, counted.symm.trans two⟩

end GlancesRs
