import GlancesRs.Engine.Freshness
import GlancesRs.Engine.Race
import GlancesRs.Server.Moves

namespace GlancesRs

open Data

/-! Every plugin's part of a run of the server is a run of its own engine: the
other plugins show in it as their cycles on the shared journal. -/

variable {setup : ServerSetup} {app after : AppState} {id other : PluginId} {r x k : ℕ}

section Views

variable {engine : Engine} {exchange : Exchange} {handling : Handling}
variable {route : Route} {request : Request} {opened : List (PluginId × ℕ)}

@[simp] theorem AppState.engine_setEngine_self : (app.setEngine id engine).engine id = engine := by
  simp [AppState.engine, setEngine]

theorem AppState.engine_setEngine_of_ne (different : other ≠ id) :
    (app.setEngine id engine).engine other = { app.engine other with
      clock := engine.clock
      alerts := engine.alerts
      committed := engine.committed } := by
  simp [AppState.engine, setEngine, Function.update_of_ne different]

@[simp] theorem AppState.engine_setHandling :
    (app.setHandling x exchange handling).engine id = app.engine id := rfl

@[simp] theorem AppState.engine_openExchange :
    (app.openExchange route request handling opened).engine id = app.engine id := rfl

end Views

section Shared

variable [NumberText] {single : Setup} {engine next : Engine} {action : Action}

/-- What a task of one plugin can do to the state all plugins share. -/
theorem Engine.step_shared (taken : engine.step single action = some next)
    (untimed : ∀ elapsed, action ≠ .tick elapsed)
    (own : ∀ id nowSys value, action ≠ .observeOther id nowSys value) :
    next.clock = engine.clock ∧
      ((next.alerts = engine.alerts ∧ next.committed = engine.committed) ∨
        ∃ nowSys value out, engine.alerts.observe single.config
            { plugin := single.id, now := engine.now, nowSys, payload := value } = some out ∧
          next.alerts = out.alerts ∧ next.committed = engine.committed ++ out.committed) := by
  cases step_moves taken with
  | ticked => exact absurd rfl (untimed _)
  | observedOther => exact absurd rfl (own _ _ _)
  | observed _ _ called => exact ⟨rfl, .inr ⟨_, _, _, called, rfl, rfl⟩⟩
  | _ => exact ⟨rfl, .inl ⟨rfl, rfl⟩⟩

/-- A task's step as the engine of any plugin sees it: its own step, a cycle of
another plugin, or nothing. -/
theorem AppState.setEngine_shown
    (taken : (app.engine other).step (setup.plugin other) action = some next)
    (untimed : ∀ elapsed, action ≠ .tick elapsed)
    (own : ∀ id nowSys value, action ≠ .observeOther id nowSys value) :
    ∃ shown, (engineSystem (setup.plugin id)).run (app.engine id) shown =
      some ((app.setEngine other next).engine id) := by
  by_cases same : id = other
  · subst same
    refine ⟨[action], ?_⟩
    rw [TransitionSystem.run_cons, engine_setEngine_self]
    change ((app.engine id).step (setup.plugin id) action).bind _ = _
    rw [taken]
    rfl
  · rw [engine_setEngine_of_ne same]
    obtain ⟨timed, ⟨alerts, committed⟩ | ⟨nowSys, value, out, called, alerts, committed⟩⟩ :=
      Engine.step_shared taken untimed own
    · refine ⟨[], ?_⟩
      rw [timed, alerts, committed]
      rfl
    · refine ⟨[.observeOther other nowSys value], ?_⟩
      have seen : (app.engine id).observeOther (setup.plugin id) other nowSys value =
          some ((app.engine id).record out) := by
        have foreign : other ≠ (setup.plugin id).id := fun fresh => same fresh.symm
        rw [Engine.observeOther, if_neg foreign]
        change (((app.engine other).alerts.observe _ _).bind _) = _
        exact (congrArg (Option.bind · _) called).trans rfl
      rw [TransitionSystem.run_cons]
      change ((app.engine id).observeOther (setup.plugin id) other nowSys value).bind _ = _
      rw [seen, timed, alerts, committed]
      rfl

end Shared

section Steps

variable [NumberText]

/-- What the engine of one plugin sees while the server goes from `app` to `after`. -/
def AppState.Shows (setup : ServerSetup) (id : PluginId) (app after : AppState) : Prop :=
  ∃ shown, (engineSystem (setup.plugin id)).run (app.engine id) shown = some (after.engine id)

theorem AppState.Shows.unchanged (same : after.engine id = app.engine id) :
    Shows setup id app after := ⟨[], by rw [same]; rfl⟩

theorem AppState.Shows.trans {middle : AppState} (first : Shows setup id app middle)
    (later : Shows setup id middle after) : Shows setup id app after := by
  obtain ⟨shown, started⟩ := first
  obtain ⟨rest, ended⟩ := later
  exact ⟨shown ++ rest, TransitionSystem.run_trans started ended⟩

theorem AppState.ensurePlugin_shows : Shows setup id app (app.ensurePlugin setup other) := by
  have arrived : (app.engine other).step (setup.plugin other) .arrive =
      some ((app.engine other).ensurePlugin (setup.plugin other)) := rfl
  exact setEngine_shown arrived (by simp) (by simp)

theorem AppState.dropRequest_shows : Shows setup id app (app.dropRequest other r) := by
  rw [dropRequest]
  cases dropped : (app.engine other).drop r with
  | none => exact .unchanged rfl
  | some next =>
      have taken : (app.engine other).step (setup.plugin other) (.drop r) = some next := dropped
      exact setEngine_shown taken (by simp) (by simp)

theorem AppState.dropTasks_shows (tasks : List (PluginId × Option ℕ)) :
    Shows setup id app (app.dropTasks tasks) := by
  induction tasks generalizing app with
  | nil => exact .unchanged rfl
  | cons task rest ih =>
      rw [dropTasks, List.foldl_cons]
      cases task.2 with
      | none => exact ih
      | some r => exact dropRequest_shows.trans ih

theorem ServerMove.shows {action : ServerAction} (move : ServerMove setup app action after) :
    AppState.Shows setup id app after := by
  cases move with
  | @ticked elapsed clock later =>
      refine ⟨[.tick elapsed], ?_⟩
      have ticked : (app.engine id).step (setup.plugin id) (.tick elapsed) =
          some { app.engine id with clock } :=
        (congrArg (Option.map _) later).trans rfl
      rw [TransitionSystem.run_cons]
      change ((app.engine id).step (setup.plugin id) (.tick elapsed)).bind _ = _
      rw [ticked]
      rfl
  | refused | answered | spread | joined | pluginReplied | allReplied => exact .unchanged rfl
  | ensured => exact AppState.ensurePlugin_shows
  | started => exact AppState.ensurePlugin_shows
  | worked stepped untimed _ _ own _ => exact AppState.setEngine_shown stepped untimed own
  | pluginAbandoned => exact AppState.dropRequest_shows
  | allAbandoned => exact AppState.dropTasks_shows _

/-- Whatever the other plugins do, each plugin's part of the server runs as the
engine of that plugin alone. -/
theorem server_projects (setup : ServerSetup) (id : PluginId) :
    (serverSystem setup).Projects (engineSystem (setup.plugin id)) (AppState.engine · id) where
  init := rfl
  step _ _ _ _ taken := (AppState.step_moves taken).shows

theorem engine_reachable (reachable : (serverSystem setup).Reachable app) (id : PluginId) :
    (engineSystem (setup.plugin id)).Reachable (app.engine id) :=
  (server_projects setup id).reachable reachable

end Steps

end GlancesRs
