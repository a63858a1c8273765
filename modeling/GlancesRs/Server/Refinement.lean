import GlancesRs.Server.AllStats

namespace GlancesRs

open Data

/-! The engine of one plugin is neither narrower nor wider than the server: it runs
as the server shows it, and whatever it can do alone some run of the server shows. -/

variable {setup : ServerSetup} {app : AppState} {id : PluginId} {request : Request}

section Requests

variable {single : Setup} {engine next : Engine} {action : Action}

theorem RequestMove.undropped {waiting moved : PluginRequest}
    (move : RequestMove single engine waiting moved) (kept : moved.phase ≠ .dropped) :
    waiting.phase ≠ .dropped := by
  cases move with
  | dropped => exact absurd rfl kept
  | _ => simp_all

/-- Between arrivals the requests are those that were there, and one that was
dropped stays dropped. -/
theorem Moves.undropped [NumberText] (moves : Moves single engine action next) (unserved : action ≠ .arrive) :
    next.requests.length = engine.requests.length ∧
      ∀ (r : ℕ) (moved : PluginRequest), next.requests[r]? = some moved → moved.phase ≠ .dropped →
        ∃ waiting, engine.requests[r]? = some waiting ∧ waiting.phase ≠ .dropped := by
  have updated : ∀ {k : ℕ} {waiting : PluginRequest} (moved : PluginRequest),
      engine.requests[k]? = some waiting → (moved.phase ≠ .dropped → waiting.phase ≠ .dropped) →
      (engine.requests.set k moved).length = engine.requests.length ∧
        ∀ (r : ℕ) (last : PluginRequest), (engine.requests.set k moved)[r]? = some last →
          last.phase ≠ .dropped → ∃ waiting, engine.requests[r]? = some waiting ∧ waiting.phase ≠ .dropped := by
    intro k waiting moved found undropped
    refine ⟨List.length_set, fun r last known kept => ?_⟩
    by_cases same : k = r
    · subst same
      have inside := (List.getElem?_eq_some_iff.mp found).1
      rw [List.getElem?_set_self inside] at known
      cases known
      exact ⟨waiting, found, undropped kept⟩
    · rw [List.getElem?_set_ne same] at known
      exact ⟨last, known, kept⟩
  cases moves with
  | ticked | loop | observed | published | removed | observedOther =>
      exact ⟨rfl, fun r moved known kept => ⟨moved, known, kept⟩⟩
  | refused | touched => exact absurd rfl unserved
  | joined found at_ | spawned found at_ => exact updated _ found fun _ => by simp [at_]
  | request found move => exact updated _ found move.undropped

end Requests

/-- The server stands where the engine does: only `id` has ever been asked for,
once for each request of the engine. -/
structure AppState.Stands (setup : ServerSetup) (id : PluginId) (app : AppState) (engine : Engine) :
    Prop where
  seen : app.engine id = engine
  others : ∀ other, other ≠ id → app.loops other = []
  opened : app.exchanges.length = engine.requests.length
  waits : ∀ (r : ℕ) (waiting : PluginRequest), engine.requests[r]? = some waiting →
    waiting.phase ≠ .dropped → ∃ exchange name, app.exchanges[r]? = some exchange ∧ exchange.handling = .ensuring name id r

section Steps

variable {engine next : Engine} {action : Action}

theorem AppState.Stands.free (stands : app.Stands setup id engine)
    (unheld : engine.lockHeld = false) : app.lockHeld = false := by
  refine Bool.eq_false_of_not_eq_true fun held => ?_
  obtain ⟨⟨holder, l⟩, rechecks⟩ := lockHeld_iff.mp held
  by_cases same : holder = id
  · subst same
    have busy := Engine.lockHeld_iff.mpr ⟨l, rechecks⟩
    rw [stands.seen, unheld] at busy
    cases busy
  · obtain ⟨loop, found, _⟩ := rechecks
    have empty : (app.engine holder).loops = [] := stands.others holder same
    simp [empty] at found

theorem AppState.receive_plugin [NumberText]
    (passed : throughLayers setup.security setup.config (.plugin id.asStr) request = .next)
    (registered : isRegistered setup.config id = true) :
    app.receive setup (.plugin id.asStr) request =
      (app.ensurePlugin setup id).openExchange (.plugin id.asStr) request
        (.ensuring id.asStr id (app.requests id).length) [(id, (app.requests id).length)] := by
  have known : registeredPlugin setup.config id.asStr = some id :=
    registeredPlugin_eq_some.mpr ⟨rfl, registered⟩
  rw [receive, passed]
  simp [handle, known]

theorem AppState.Stands.arrive (registered : isRegistered setup.config id = true)
    (stands : app.Stands setup id engine) :
    ((app.ensurePlugin setup id).openExchange (.plugin id.asStr) request
      (.ensuring id.asStr id (app.requests id).length) [(id, (app.requests id).length)]).Stands setup id
      (engine.ensurePlugin (setup.plugin id)) := by
  obtain ⟨rfl, others, opened, waits⟩ := stands
  have enabled : (setup.plugin id).config.pluginEnabled (setup.plugin id).id.asStr = true := registered
  have appended := congrArg Engine.requests (@Engine.ensurePlugin_enabled _ (app.engine id) enabled)
  refine ⟨?_, fun other different => ?_, ?_, fun r waiting known kept => ?_⟩
  · rw [engine_openExchange, ensurePlugin, engine_setEngine_self]
  · exact (loops_setEngine_of_ne different).trans (others other different)
  · rw [appended]
    simp [openExchange, ensurePlugin, setEngine, opened]
  · rw [appended] at known
    change ∃ exchange name, (app.exchanges ++ _)[r]? = some exchange ∧ _
    rcases Nat.lt_trichotomy r (app.engine id).requests.length with old | rfl | beyond
    · rw [List.getElem?_append_left old] at known
      rw [List.getElem?_append_left (opened ▸ old)]
      exact waits r waiting known kept
    · rw [List.getElem?_append_right opened.le, opened, Nat.sub_self]
      exact ⟨_, _, rfl, rfl⟩
    · rw [List.getElem?_append_right beyond.le, List.getElem?_eq_none (by simp; omega)] at known
      cases known

variable [NumberText]

theorem AppState.Stands.drop {r : ℕ} (stands : app.Stands setup id engine)
    (dropped : engine.drop r = some next) :
    ∃ after, app.step setup (.abandon r) = some after ∧ after.Stands setup id next := by
  obtain ⟨rfl, others, opened, waits⟩ := stands
  have taken : (app.engine id).step (setup.plugin id) (.drop r) = some next := dropped
  obtain ⟨same, undropped⟩ := (Engine.step_moves taken).undropped (by simp)
  obtain ⟨waiting, found, rest⟩ := Option.bind_eq_some_iff.mp dropped
  have pending : waiting.phase ≠ .dropped ∧
      next = (app.engine id).setRequest r { waiting with phase := .dropped } := by
    split at rest
    · rename_i at_
      cases rest
      exact ⟨by simp [at_], rfl⟩
    · rename_i at_
      cases rest
      exact ⟨by simp [at_], rfl⟩
    · rename_i at_
      cases rest
      exact ⟨by simp [at_], rfl⟩
    · cases rest
  obtain ⟨exchange, name, listed, handled⟩ := waits r waiting found pending.1
  have left : app.step setup (.abandon r) =
      some ((app.setEngine id next).setHandling r exchange .abandoned) := by
    rw [AppState.step, abandon, listed, Option.bind_eq_bind, Option.bind_some, handled]
    simp [dropRequest, dropped]
  refine ⟨_, left, engine_setEngine_self, fun other different => ?_, ?_, ?_⟩
  · exact (loops_setEngine_of_ne different).trans (others other different)
  · rw [same, ← opened]
    exact List.length_set
  · intro k moved known kept
    have elsewhere : r ≠ k := by
      rintro rfl
      rw [pending.2, Engine.requests_setRequest_self found] at known
      cases known
      exact kept rfl
    obtain ⟨former, found, kept⟩ := undropped k moved known kept
    change ∃ exchange name, (app.exchanges.set r _)[k]? = some exchange ∧ _
    rw [List.getElem?_set_ne elsewhere]
    exact waits k former found kept

theorem AppState.Stands.step
    (passed : throughLayers setup.security setup.config (.plugin id.asStr) request = .next)
    (registered : isRegistered setup.config id = true) (stands : app.Stands setup id engine)
    (own : ∀ id nowSys value, action ≠ .observeOther id nowSys value)
    (taken : engine.step (setup.plugin id) action = some next) :
    ∃ label after, app.step setup label = some after ∧ after.Stands setup id next := by
  by_cases arrives : action = .arrive
  · subst arrives
    cases taken
    have received : app.step setup (.receive (.plugin id.asStr) request) = some _ :=
      congrArg some (receive_plugin passed registered)
    exact ⟨_, _, received, stands.arrive registered⟩
  by_cases drops : ∃ r, action = .drop r
  · obtain ⟨r, rfl⟩ := drops
    exact ⟨_, stands.drop taken⟩
  have free : (∃ r, action = .lookup r) ∨ (∃ l, action = .lock l) → app.lockHeld = false := by
    intro locks
    rcases locks with ⟨r, rfl⟩ | ⟨l, rfl⟩
    · obtain ⟨_, _, _, unheld, _⟩ := Engine.lookup_cases taken
      exact stands.free unheld
    · obtain ⟨_, _, rest⟩ := Option.bind_eq_some_iff.mp taken
      refine stands.free (Bool.eq_false_of_not_eq_true fun held => ?_)
      split at rest <;> simp [held] at rest
  obtain ⟨rfl, others, opened, waits⟩ := stands
  obtain ⟨same, undropped⟩ := (Engine.step_moves taken).undropped arrives
  have waiting : ∀ (r : ℕ) (moved : PluginRequest), next.requests[r]? = some moved →
      moved.phase ≠ .dropped →
      ∃ exchange name, app.exchanges[r]? = some exchange ∧ exchange.handling = .ensuring name id r := by
    intro r moved known kept
    obtain ⟨waiting, found, kept⟩ := undropped r moved known kept
    exact waits r waiting found kept
  by_cases ticks : ∃ elapsed, action = .tick elapsed
  · obtain ⟨elapsed, rfl⟩ := ticks
    obtain ⟨clock, later, rfl⟩ := Option.map_eq_some_iff.mp taken
    have timed : app.clock.advance? elapsed = some clock := later
    refine ⟨.tick elapsed, { app with clock }, ?_, ⟨rfl, others, opened, waits⟩⟩
    rw [AppState.step, timed]
    rfl
  · refine ⟨.work id action, app.setEngine id next, ?_, engine_setEngine_self, fun other different => ?_,
      opened.trans same.symm, waiting⟩
    · exact work_of_step taken (not_exists.mp ticks) arrives (not_exists.mp drops) own free
    · rw [loops_setEngine_of_ne different]
      exact others other different

/-- Between any two states of a run of the server the engine runs, and every run of the
engine of a registered plugin, foreign cycles apart, is shown state for state by a run of
the server to which a request is let through. -/
theorem server_engine_exact (setup : ServerSetup) (id : PluginId) :
    ((serverSystem setup).init.engine id = (engineSystem (setup.plugin id)).init ∧
      ∀ app labels after, (serverSystem setup).Reachable app →
        (serverSystem setup).run app labels = some after →
        ∃ actions, (engineSystem (setup.plugin id)).run (app.engine id) actions =
          some (after.engine id)) ∧
    ∀ request, throughLayers setup.security setup.config (.plugin id.asStr) request = .next →
      isRegistered setup.config id = true → ∀ actions engine,
      (∀ action ∈ actions, ∀ id nowSys value, action ≠ .observeOther id nowSys value) →
      (engineSystem (setup.plugin id)).run (engineSystem (setup.plugin id)).init actions = some engine →
      ∃ labels : List ServerAction, labels.length = actions.length ∧ ∀ n, ∃ app,
        (serverSystem setup).run (serverSystem setup).init (labels.take n) = some app ∧
        (engineSystem (setup.plugin id)).run (engineSystem (setup.plugin id)).init (actions.take n) =
          some (app.engine id) := by
  refine ⟨⟨rfl, fun app labels after reachable ran => (server_projects setup id).run reachable ran⟩,
    fun request passed registered actions engine own ran => ?_⟩
  have initial : AppState.Stands setup id (serverSystem setup).init
      (engineSystem (setup.plugin id)).init := by
    refine ⟨rfl, fun _ _ => rfl, rfl, fun r waiting known => ?_⟩
    simp [engineSystem] at known
  obtain ⟨labels, length, along⟩ :=
    @TransitionSystem.run_simulated _ _ (serverSystem setup) _ _ _ (engineSystem (setup.plugin id))
      (fun app engine => AppState.Stands setup id app engine) _ _ _
      (fun action member app seen next stands taken => stands.step passed registered (own action member) taken)
      initial ran
  refine ⟨labels, length, fun n => ?_⟩
  obtain ⟨app, view, reached, viewed, stands⟩ := along n
  exact ⟨app, reached, by rw [viewed, stands.seen]⟩

end Steps

theorem coldWake_server_engine_exact : ∃ labels : List ServerAction, labels.length = coldWake.length ∧ ∀ n, ∃ app,
    (@serverSystem .integers defaultServer).run (@serverSystem .integers defaultServer).init
      (labels.take n) = some app ∧
    (@engineSystem .integers (defaultServer.plugin .mem)).run
      (@engineSystem .integers (defaultServer.plugin .mem)).init (coldWake.take n) =
        some (app.engine .mem) := by
  have served : ((@engineSystem .integers (defaultServer.plugin .mem)).run
      (@engineSystem .integers (defaultServer.plugin .mem)).init coldWake).isSome = true := by
    decide +kernel
  obtain ⟨engine, ran⟩ := Option.isSome_iff_exists.mp served
  have own : ∀ action ∈ coldWake, ∀ id nowSys value, action ≠ .observeOther id nowSys value := by
    simp [coldWake]
  exact (@server_engine_exact .integers defaultServer .mem).2 { headers := [] } (by decide +kernel)
    (by decide +kernel) coldWake engine own ran

end GlancesRs
