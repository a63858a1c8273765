import GlancesRs.Server.App

namespace GlancesRs

open Data

/-! Everything one action of the server can do, said once. -/

inductive ServerMove [NumberText] (setup : ServerSetup) (app : AppState) :
    ServerAction → AppState → Prop where
  | ticked {elapsed : ℕ} {clock : Clock} (later : app.clock.advance? elapsed = some clock) :
      ServerMove setup app (.tick elapsed) { app with clock }
  | refused {route : Route} {request : Request} {response : Response}
      (barred : throughLayers setup.security setup.config route request = .respond response) :
      ServerMove setup app (.receive route request)
        (app.openExchange route request (.replied response.reply))
  | answered {route : Route} {request : Request} {reply : Reply}
      (passed : throughLayers setup.security setup.config route request = .next)
      (handled : handle setup.config app.alerts route = .reply reply) :
      ServerMove setup app (.receive route request)
        (app.openExchange route request (.replied reply))
  | ensured {route : Route} {request : Request} {name : String} {id : PluginId}
      (passed : throughLayers setup.security setup.config route request = .next)
      (handled : handle setup.config app.alerts route = .ensure name id) :
      ServerMove setup app (.receive route request)
        ((app.ensurePlugin setup id).openExchange route request
          (.ensuring name id (app.requests id).length) [(id, (app.requests id).length)])
  | spread {route : Route} {request : Request} {ids : List PluginId}
      (passed : throughLayers setup.security setup.config route request = .next)
      (handled : handle setup.config app.alerts route = .ensureAll ids) :
      ServerMove setup app (.receive route request)
        (app.openExchange route request (.joining (ids.map fun id => (id, none)) []))
  | started {x k : ℕ} {exchange : Exchange} {tasks : List (PluginId × Option ℕ)}
      {joined : List TaskResult} {id : PluginId}
      (found : app.exchanges[x]? = some exchange) (at_ : exchange.handling = .joining tasks joined)
      (task : tasks[k]? = some (id, none)) :
      ServerMove setup app (.startTask x k) ((app.ensurePlugin setup id).setHandling x
        { exchange with opened := exchange.opened ++ [(id, (app.requests id).length)] }
        (.joining (tasks.set k (id, some (app.requests id).length)) joined))
  | worked {id : PluginId} {action : Action} {next : Engine}
      (stepped : (app.engine id).step (setup.plugin id) action = some next)
      (untimed : ∀ elapsed, action ≠ .tick elapsed) (served : action ≠ .arrive)
      (kept : ∀ r, action ≠ .drop r)
      (own : ∀ id nowSys value, action ≠ .observeOther id nowSys value)
      (free : (∃ r, action = .lookup r) ∨ (∃ l, action = .lock l) → app.lockHeld = false) :
      ServerMove setup app (.work id action) (app.setEngine id next)
  | joined {x k r : ℕ} {exchange : Exchange} {tasks : List (PluginId × Option ℕ)}
      {joined : List TaskResult} {id : PluginId} {exit : Exit}
      (found : app.exchanges[x]? = some exchange) (at_ : exchange.handling = .joining tasks joined)
      (task : tasks[k]? = some (id, some r)) (done : app.exit id r = some exit) :
      ServerMove setup app (.joinNext x k) (app.setHandling x exchange
        (.joining (tasks.eraseIdx k) (joined ++ [.ok (id, exit.result.map toVec)])))
  | pluginReplied {x r : ℕ} {exchange : Exchange} {name : String} {id : PluginId} {exit : Exit}
      (found : app.exchanges[x]? = some exchange) (at_ : exchange.handling = .ensuring name id r)
      (done : app.exit id r = some exit) :
      ServerMove setup app (.respond x)
        (app.setHandling x exchange (.replied (pluginStats name exit.result)))
  | allReplied {x : ℕ} {exchange : Exchange} {joined : List TaskResult}
      (found : app.exchanges[x]? = some exchange) (at_ : exchange.handling = .joining [] joined) :
      ServerMove setup app (.respond x) (app.setHandling x exchange (.replied
        { status := 200
          headers := [("content-type", "application/json")]
          body := allStats joined }))
  | pluginAbandoned {x r : ℕ} {exchange : Exchange} {name : String} {id : PluginId}
      (found : app.exchanges[x]? = some exchange) (at_ : exchange.handling = .ensuring name id r) :
      ServerMove setup app (.abandon x) ((app.dropRequest id r).setHandling x exchange .abandoned)
  | allAbandoned {x : ℕ} {exchange : Exchange} {tasks : List (PluginId × Option ℕ)}
      {joined : List TaskResult}
      (found : app.exchanges[x]? = some exchange) (at_ : exchange.handling = .joining tasks joined) :
      ServerMove setup app (.abandon x) ((app.dropTasks tasks).setHandling x exchange .abandoned)

section Inversion

variable [NumberText] {setup : ServerSetup} {app after : AppState} {id : PluginId} {x k : ℕ}

theorem AppState.work_step {action : Action} (taken : app.work setup id action = some after) :
    (∃ next, (app.engine id).step (setup.plugin id) action = some next ∧
      after = app.setEngine id next) ∧
    (∀ elapsed, action ≠ .tick elapsed) ∧ action ≠ .arrive ∧ (∀ r, action ≠ .drop r) ∧
    (∀ id nowSys value, action ≠ .observeOther id nowSys value) ∧
    ((∃ r, action = .lookup r) ∨ (∃ l, action = .lock l) → app.lockHeld = false) := by
  cases action with
  | tick | arrive | drop | observeOther => cases taken
  | lookup | lock =>
      rw [work] at taken
      split at taken
      · cases taken
      · rename_i free
        obtain ⟨next, stepped, rfl⟩ := Option.map_eq_some_iff.mp taken
        exact ⟨⟨next, stepped, rfl⟩, by simp, by simp, by simp, by simp, fun _ => by simpa using free⟩
  | _ =>
      obtain ⟨next, stepped, rfl⟩ := Option.map_eq_some_iff.mp taken
      exact ⟨⟨next, stepped, rfl⟩, by simp, by simp, by simp, by simp, by simp⟩

/-- A task's step is a step of the server where no other loop holds the lock it takes. -/
theorem AppState.work_of_step {action : Action} {next : Engine}
    (stepped : (app.engine id).step (setup.plugin id) action = some next)
    (untimed : ∀ elapsed, action ≠ .tick elapsed) (served : action ≠ .arrive)
    (kept : ∀ r, action ≠ .drop r) (own : ∀ id nowSys value, action ≠ .observeOther id nowSys value)
    (free : (∃ r, action = .lookup r) ∨ (∃ l, action = .lock l) → app.lockHeld = false) :
    app.work setup id action = some (app.setEngine id next) := by
  cases action with
  | tick elapsed => exact absurd rfl (untimed elapsed)
  | arrive => exact absurd rfl served
  | drop r => exact absurd rfl (kept r)
  | observeOther id nowSys value => exact absurd rfl (own id nowSys value)
  | lookup r =>
      have unheld := free (.inl ⟨r, rfl⟩)
      rw [work]
      simp [unheld, stepped]
  | lock l =>
      have unheld := free (.inr ⟨l, rfl⟩)
      rw [work]
      simp [unheld, stepped]
  | _ => simp [work, stepped]

theorem AppState.receive_moves (route : Route) (request : Request) :
    ServerMove setup app (.receive route request) (app.receive setup route request) := by
  rw [receive]
  cases passed : throughLayers setup.security setup.config route request with
  | respond response => exact .refused passed
  | next =>
      cases handled : handle setup.config app.alerts route with
      | reply reply => exact .answered passed handled
      | ensure name id => exact .ensured passed handled
      | ensureAll ids => exact .spread passed handled

theorem AppState.startTask_moves (taken : app.startTask setup x k = some after) :
    ServerMove setup app (.startTask x k) after := by
  obtain ⟨exchange, found, rest⟩ := Option.bind_eq_some_iff.mp taken
  split at rest
  · rename_i tasks joined at_
    obtain ⟨task, listed, rest⟩ := Option.bind_eq_some_iff.mp rest
    split at rest
    · cases rest
      exact .started found at_ listed
    · cases rest
  · cases rest

theorem AppState.joinNext_moves (taken : app.joinNext x k = some after) :
    ServerMove setup app (.joinNext x k) after := by
  obtain ⟨exchange, found, rest⟩ := Option.bind_eq_some_iff.mp taken
  split at rest
  · rename_i tasks joined at_
    obtain ⟨task, listed, rest⟩ := Option.bind_eq_some_iff.mp rest
    split at rest
    · obtain ⟨exit, done, rest⟩ := Option.bind_eq_some_iff.mp rest
      cases rest
      exact .joined found at_ listed done
    · cases rest
  · cases rest

theorem AppState.respond_moves (taken : app.respond x = some after) :
    ServerMove setup app (.respond x) after := by
  obtain ⟨exchange, found, rest⟩ := Option.bind_eq_some_iff.mp taken
  split at rest
  · rename_i name id r at_
    obtain ⟨exit, done, rest⟩ := Option.bind_eq_some_iff.mp rest
    cases rest
    exact .pluginReplied found at_ done
  · rename_i joined at_
    cases rest
    exact .allReplied found at_
  · cases rest

theorem AppState.abandon_moves (taken : app.abandon x = some after) :
    ServerMove setup app (.abandon x) after := by
  obtain ⟨exchange, found, rest⟩ := Option.bind_eq_some_iff.mp taken
  split at rest
  · rename_i name id r at_
    cases rest
    exact .pluginAbandoned found at_
  · rename_i tasks joined at_
    cases rest
    exact .allAbandoned found at_
  · cases rest

/-- Every step of the server is one of the moves. -/
theorem AppState.step_moves {action : ServerAction} (taken : app.step setup action = some after) :
    ServerMove setup app action after := by
  cases action with
  | tick elapsed =>
      obtain ⟨clock, later, rfl⟩ := Option.map_eq_some_iff.mp taken
      exact .ticked later
  | receive route request =>
      cases taken
      exact receive_moves route request
  | startTask x k => exact startTask_moves taken
  | work id action =>
      obtain ⟨⟨next, stepped, rfl⟩, untimed, served, kept, own, free⟩ := work_step taken
      exact .worked stepped untimed served kept own free
  | joinNext x k => exact joinNext_moves taken
  | respond x => exact respond_moves taken
  | abandon x => exact abandon_moves taken

end Inversion

end GlancesRs
