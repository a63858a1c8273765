import GlancesRs.Engine.Carried
import GlancesRs.Server.Inert

namespace GlancesRs

open Data

/-! What the tasks of all plugins hand on, and what they share: the clock and the
alert engine, which only an `observe` changes. -/

variable {setup : ServerSetup} {app after : AppState} {id other : PluginId} {r : ℕ}
variable {raw served : PluginId → Json → Prop} {action : ServerAction}

section Carried

def AppState.Carries (raw served : PluginId → Json → Prop) (app : AppState) : Prop :=
  ∀ id, (app.engine id).Carries (raw id) (served id)

theorem AppState.Carries.mono {more : PluginId → Json → Prop}
    (wider : ∀ id body, served id body → more id body) (carries : app.Carries raw served) :
    app.Carries raw more :=
  fun id => (carries id).mono (wider id)

theorem AppState.carries_initial {alerts : Alerts} : AppState.Carries raw served { alerts } := by
  intro id
  refine ⟨?_, ?_, ?_⟩ <;> exact fun _ impossible => by cases impossible

theorem AppState.Carries.exit {snapshot : Snapshot} (carries : app.Carries raw served)
    (done : app.exit id r = some (.found snapshot)) : served id snapshot.body := by
  obtain ⟨request, found, finished⟩ := exit_eq_some.mp done
  have held := (carries id).requests request (List.mem_of_getElem? found)
  rwa [PluginRequest.Carries, finished] at held

theorem AppState.setEngine_carries {next : Engine} (carries : app.Carries raw served)
    (moved : next.Carries (raw other) (served other)) : (app.setEngine other next).Carries raw served := by
  intro id
  by_cases same : id = other
  · subst same
    rw [engine_setEngine_self]
    exact moved
  · rw [engine_setEngine_of_ne same]
    obtain ⟨loops, stored, requests⟩ := carries id
    exact ⟨loops, stored, requests⟩

variable [NumberText]

/-- A step that neither collects nor observes hands on what was there. -/
theorem AppState.engine_carries {own : Action} {next : Engine}
    (taken : (app.engine id).step (setup.plugin id) own = some next)
    (collects : ∀ l value, own ≠ .collect l value) (observes : ∀ l nowSys, own ≠ .observe l nowSys)
    (carries : app.Carries raw served) : next.Carries (raw id) (served id) :=
  Engine.step_carries taken (fun l value same => absurd same (collects l value))
    (fun l nowSys _ _ _ same => absurd same (observes l nowSys)) (carries id)

theorem AppState.ensurePlugin_carries (carries : app.Carries raw served) :
    (app.ensurePlugin setup other).Carries raw served := by
  have arrived : (app.engine other).step (setup.plugin other) .arrive =
      some ((app.engine other).ensurePlugin (setup.plugin other)) := rfl
  exact setEngine_carries carries (engine_carries arrived (by simp) (by simp) carries)

theorem AppState.dropRequest_carries (setup : ServerSetup) (carries : app.Carries raw served) :
    (app.dropRequest other r).Carries raw served := by
  rw [dropRequest]
  cases dropped : (app.engine other).drop r with
  | none => exact carries
  | some next =>
      have taken : (app.engine other).step (setup.plugin other) (.drop r) = some next := dropped
      exact setEngine_carries carries (engine_carries taken (by simp) (by simp) carries)

theorem AppState.dropTasks_carries (setup : ServerSetup) (tasks : List (PluginId × Option ℕ))
    (carries : app.Carries raw served) : (app.dropTasks tasks).Carries raw served := by
  induction tasks generalizing app with
  | nil => exact carries
  | cons task rest ih =>
      rw [dropTasks, List.foldl_cons]
      refine ih ?_
      cases task.2 with
      | none => exact carries
      | some r => exact dropRequest_carries setup carries

theorem ServerMove.carries (move : ServerMove setup app action after)
    (collected : ∀ id l value, action = .work id (.collect l value) → raw id value)
    (observed : ∀ id l nowSys loop value out, action = .work id (.observe l nowSys) →
      (app.loops id)[l]? = some loop → loop.phase = .observing value → raw id value →
      app.alerts.observe setup.config
        { plugin := id, now := app.clock.nanos, nowSys, payload := value } = some out →
      served id out.value)
    (carries : app.Carries raw served) : after.Carries raw served := by
  cases move with
  | ticked =>
      intro id
      obtain ⟨loops, stored, requests⟩ := carries id
      exact ⟨loops, stored, requests⟩
  | refused | answered | spread | joined | pluginReplied | allReplied => exact carries
  | ensured => exact AppState.ensurePlugin_carries carries
  | started => exact AppState.ensurePlugin_carries carries
  | @worked id own next stepped =>
      exact AppState.setEngine_carries carries
        (Engine.step_carries stepped (fun l value same => collected id l value (congrArg _ same))
          (fun l nowSys loop value out same => observed id l nowSys loop value out (congrArg _ same))
          (carries id))
  | pluginAbandoned => exact AppState.dropRequest_carries setup carries
  | allAbandoned => exact AppState.dropTasks_carries setup _ carries

end Carried

section Shared

variable [NumberText]

/-- A task of one plugin changes the alert engine by observing what its loop holds. -/
theorem Engine.step_alerts {single : Setup} {engine next : Engine} {own : Action}
    (taken : engine.step single own = some next) (untimed : ∀ elapsed, own ≠ .tick elapsed)
    (mine : ∀ id nowSys value, own ≠ .observeOther id nowSys value) :
    next.clock = engine.clock ∧
      ((next.alerts = engine.alerts ∧ next.committed = engine.committed ∧
          ∀ l nowSys, own ≠ .observe l nowSys) ∨
        ∃ l nowSys loop value out, own = .observe l nowSys ∧ engine.loops[l]? = some loop ∧
          loop.phase = .observing value ∧
          engine.alerts.observe single.config
            { plugin := single.id, now := engine.now, nowSys, payload := value } = some out ∧
          next.alerts = out.alerts ∧ next.committed = engine.committed ++ out.committed) := by
  cases own with
  | tick elapsed => exact absurd rfl (untimed elapsed)
  | observeOther id nowSys value => exact absurd rfl (mine id nowSys value)
  | observe l nowSys =>
      obtain ⟨loop, value, out, found, at_, called, rfl⟩ := observe_cases taken
      exact ⟨rfl, .inr ⟨l, nowSys, loop, value, out, rfl, found, at_, called, rfl, rfl⟩⟩
  | _ => cases step_moves taken <;> exact ⟨rfl, .inl ⟨rfl, rfl, by simp⟩⟩

/-- What one action does to what all tasks share. -/
theorem ServerMove.shared (move : ServerMove setup app action after) :
    app.clock.nanos ≤ after.clock.nanos ∧
      ((after.alerts = app.alerts ∧ after.committed = app.committed ∧
          ∀ id l nowSys, action ≠ .work id (.observe l nowSys)) ∨
        ∃ id l nowSys loop value out, action = .work id (.observe l nowSys) ∧
          (app.loops id)[l]? = some loop ∧ loop.phase = .observing value ∧
          app.alerts.observe setup.config
            { plugin := id, now := app.clock.nanos, nowSys, payload := value } = some out ∧
          after.alerts = out.alerts ∧ after.committed = app.committed ++ out.committed) := by
  have same {changed : AppState} (kept : changed.clock = app.clock ∧ changed.alerts = app.alerts ∧
      changed.committed = app.committed) (other : ∀ id l nowSys, action ≠ .work id (.observe l nowSys)) :
      app.clock.nanos ≤ changed.clock.nanos ∧ changed.alerts = app.alerts ∧
        changed.committed = app.committed ∧ ∀ id l nowSys, action ≠ .work id (.observe l nowSys) :=
    ⟨kept.1 ▸ le_rfl, kept.2.1, kept.2.2, other⟩
  cases move with
  | ticked later =>
      exact ⟨Nat.le.intro (Clock.advance?_eq_some.mp later).symm, .inl ⟨rfl, rfl, by simp⟩⟩
  | refused | answered | spread | joined | pluginReplied | allReplied =>
      exact ⟨le_rfl, .inl ⟨rfl, rfl, by simp⟩⟩
  | ensured => exact (same AppState.shared_ensurePlugin (by simp)).imp_right .inl
  | started => exact (same AppState.shared_ensurePlugin (by simp)).imp_right .inl
  | @worked id own next stepped untimed _ _ mine _ =>
      obtain ⟨timed, ⟨alerts, committed, other⟩ | ⟨l, nowSys, loop, value, out, rfl, found, at_, called,
        alerts, committed⟩⟩ := Engine.step_alerts stepped untimed mine
      · refine ⟨(congrArg Clock.nanos timed).ge, .inl ⟨alerts, committed, fun other' l nowSys same => ?_⟩⟩
        cases same
        exact other l nowSys rfl
      · exact ⟨(congrArg Clock.nanos timed).ge,
          .inr ⟨id, l, nowSys, loop, value, out, rfl, found, at_, called, alerts, committed⟩⟩
  | pluginAbandoned => exact (same AppState.shared_dropRequest (by simp)).imp_right .inl
  | allAbandoned => exact (same (AppState.shared_dropTasks _) (by simp)).imp_right .inl

end Shared

end GlancesRs
