import GlancesRs.Server.Collectors

namespace GlancesRs

open Data

/-! Where every reply of the server comes from, in every reachable state. -/

variable {setup : ServerSetup} {app after : AppState} {id : PluginId} {r : ℕ} {exit : Exit}
variable {route : Route} {request : Request} {exchange : Exchange} {reply : Reply}

/-- The plugin a route names, where it names one. -/
def Route.pluginName : Route → Option String
  | .plugin name | .pluginInfo name | .pluginLimits name => some name
  | _ => none

def taskResult [NumberText] (ended : PluginId × Exit) : TaskResult :=
  .ok (ended.1, ended.2.result.map toVec)

/-- The end of a task and the request it stood for. -/
abbrev TaskEnd := (PluginId × ℕ) × Exit

def TaskEnd.result [NumberText] (ended : TaskEnd) : TaskResult := taskResult (ended.1.1, ended.2)

/-- The requests of the tasks that have run. -/
def startedTasks (tasks : List (PluginId × Option ℕ)) : List (PluginId × ℕ) :=
  tasks.filterMap fun task => task.2.map fun r => (task.1, r)

section Exits

variable {single : Setup} {engine next : Engine} {action : Action}

theorem RequestMove.unfinished {request moved : PluginRequest}
    (move : RequestMove single engine request moved) : request.phase ≠ .done exit := by
  cases move <;> simp_all

theorem AppState.exit_eq_some : app.exit id r = some exit ↔
    ∃ request, (app.engine id).requests[r]? = some request ∧ request.phase = .done exit := by
  simp only [AppState.exit, engine, Option.bind_eq_bind, Option.bind_eq_some_iff]
  constructor
  · intro taken
    obtain ⟨request, found, rest⟩ := taken
    split at rest
    · rename_i finished
      cases rest
      exact ⟨request, found, finished⟩
    · cases rest
  · intro known
    obtain ⟨request, found, finished⟩ := known
    exact ⟨request, found, by rw [finished]; rfl⟩

variable [NumberText]

/-- A request that is done stays done, at its place. -/
theorem Moves.exit_kept (moves : Moves single engine action next)
    (done : ∃ request, engine.requests[r]? = some request ∧ request.phase = .done exit) :
    ∃ request, next.requests[r]? = some request ∧ request.phase = .done exit := by
  obtain ⟨request, found, finished⟩ := done
  have appended : ∀ more, (engine.requests ++ more)[r]? = some request := by
    intro more
    rw [List.getElem?_append_left (List.getElem?_eq_some_iff.mp found).1, found]
  have elsewhere : ∀ {k : ℕ} {other : PluginRequest} (moved : PluginRequest),
      engine.requests[k]? = some other → other.phase ≠ .done exit →
      (engine.requests.set k moved)[r]? = some request := by
    intro k other moved known unfinished
    have different : k ≠ r := by
      rintro rfl
      rw [found] at known
      cases known
      exact unfinished finished
    rw [List.getElem?_set_ne different, found]
  cases moves with
  | ticked | loop | observed | published | removed | observedOther =>
      exact ⟨request, found, finished⟩
  | refused | touched => exact ⟨request, appended _, finished⟩
  | joined known at_ | spawned known at_ =>
      exact ⟨request, elsewhere _ known (by simp [at_]), finished⟩
  | request known move => exact ⟨request, elsewhere _ known move.unfinished, finished⟩

theorem AppState.Shows.exit_kept (shows : Shows setup id app after) (done : app.exit id r = some exit) :
    after.exit id r = some exit := by
  obtain ⟨shown, ran⟩ := shows
  rw [exit_eq_some] at done ⊢
  exact @TransitionSystem.run_invariant _ _ (engineSystem (setup.plugin id))
    (fun engine => ∃ request, engine.requests[r]? = some request ∧ request.phase = .done exit) _ _ _
    (fun _ _ _ done taken => (Engine.step_moves taken).exit_kept done) done ran

end Exits

section Accounts

variable [NumberText]

/-- How a reply comes about: at the layers, from the handler alone, or from what
`ensure_plugin` returned. -/
inductive Answer (setup : ServerSetup) (app : AppState) (route : Route) (request : Request)
    (opened : List (PluginId × ℕ)) : Reply → Prop where
  | refused {response : Response}
      (barred : throughLayers setup.security setup.config route request = .respond response)
      (own : opened = []) :
      Answer setup app route request opened response.reply
  | inert {alerts : Alerts} {reply : Reply}
      (passed : throughLayers setup.security setup.config route request = .next)
      (handled : handle setup.config alerts route = .reply reply) (own : opened = []) :
      Answer setup app route request opened reply
  | plugin {name : String} {id : PluginId} {r : ℕ} {exit : Exit}
      (passed : throughLayers setup.security setup.config route request = .next)
      (named : route = .plugin name) (registered : registeredPlugin setup.config name = some id)
      (own : opened = [(id, r)]) (done : app.exit id r = some exit) :
      Answer setup app route request opened (pluginStats name exit.result)
  | all {ended : List TaskEnd}
      (passed : throughLayers setup.security setup.config route request = .next)
      (named : route = .all) (own : (ended.map Prod.fst).Perm opened)
      (done : ∀ id r exit, ((id, r), exit) ∈ ended → app.exit id r = some exit)
      (complete : (opened.map Prod.fst).Perm (PluginId.all.filter (isRegistered setup.config))) :
      Answer setup app route request opened
        { status := 200
          headers := [("content-type", "application/json")]
          body := allStats (ended.map TaskEnd.result) }

/-- What an exchange has come to agrees with its route and its request. -/
def Exchange.Accounted (setup : ServerSetup) (app : AppState) (exchange : Exchange) : Prop :=
  match exchange.handling with
  | .ensuring name id r =>
      throughLayers setup.security setup.config exchange.route exchange.request = .next ∧
        exchange.route = .plugin name ∧ registeredPlugin setup.config name = some id ∧
        exchange.opened = [(id, r)]
  | .joining tasks joined =>
      throughLayers setup.security setup.config exchange.route exchange.request = .next ∧
        exchange.route = .all ∧ ∃ ended : List TaskEnd, joined = ended.map TaskEnd.result ∧
          (∀ id r exit, ((id, r), exit) ∈ ended → app.exit id r = some exit) ∧
          (startedTasks tasks ++ ended.map Prod.fst).Perm exchange.opened ∧
          (tasks.map Prod.fst ++ (ended.map Prod.fst).map Prod.fst).Perm
            (PluginId.all.filter (isRegistered setup.config))
  | .replied reply => Answer setup app exchange.route exchange.request exchange.opened reply
  | .abandoned =>
      throughLayers setup.security setup.config exchange.route exchange.request = .next ∧
        (exchange.route = .all ∨ ∃ name, exchange.route = .plugin name)

theorem handle_ensure {alerts : Alerts} {name : String}
    (handled : handle setup.config alerts route = .ensure name id) :
    route = .plugin name ∧ registeredPlugin setup.config name = some id := by
  cases route with
  | plugin other =>
      rw [handle] at handled
      split at handled
      · cases handled
      · rename_i registered
        cases handled
        exact ⟨rfl, registered⟩
  | pluginInfo | pluginLimits =>
      rw [handle] at handled
      split at handled <;> cases handled
  | _ => cases handled

theorem handle_ensureAll {alerts : Alerts} {ids : List PluginId}
    (handled : handle setup.config alerts route = .ensureAll ids) :
    route = .all ∧ ids = PluginId.all.filter (isRegistered setup.config) := by
  cases route with
  | all =>
      cases handled
      exact ⟨rfl, rfl⟩
  | plugin | pluginInfo | pluginLimits =>
      rw [handle] at handled
      split at handled <;> cases handled
  | _ => cases handled

theorem Answer.later {opened : List (PluginId × ℕ)} (shows : ∀ id, AppState.Shows setup id app after)
    (answer : Answer setup app route request opened reply) :
    Answer setup after route request opened reply := by
  cases answer with
  | refused barred own => exact .refused barred own
  | inert passed handled own => exact .inert passed handled own
  | plugin passed named registered own done =>
      exact .plugin passed named registered own ((shows _).exit_kept done)
  | all passed named own done complete =>
      exact .all passed named own
        (fun id r exit member => (shows id).exit_kept (done id r exit member)) complete

theorem Exchange.Accounted.later (shows : ∀ id, AppState.Shows setup id app after)
    (accounted : exchange.Accounted setup app) : exchange.Accounted setup after := by
  obtain ⟨route, request, handling, opened⟩ := exchange
  cases handling with
  | ensuring | abandoned => exact accounted
  | joining tasks joined =>
      obtain ⟨passed, named, ended, same, done, own, complete⟩ := accounted
      exact ⟨passed, named, ended, same,
        fun id r exit member => (shows id).exit_kept (done id r exit member), own, complete⟩
  | replied reply => exact Answer.later shows accounted

end Accounts

section Steps

variable {handling : Handling} {opened : List (PluginId × ℕ)} {middle : AppState} {x : ℕ}

def AppState.Accounted [NumberText] (setup : ServerSetup) (app : AppState) : Prop :=
  ∀ exchange ∈ app.exchanges, exchange.Accounted setup app

theorem AppState.exchanges_dropRequest : (app.dropRequest id r).exchanges = app.exchanges := by
  rw [dropRequest]
  cases (app.engine id).drop r <;> rfl

theorem AppState.exchanges_dropTasks (tasks : List (PluginId × Option ℕ)) :
    (app.dropTasks tasks).exchanges = app.exchanges := by
  induction tasks generalizing app with
  | nil => rfl
  | cons task rest ih =>
      rw [dropTasks, List.foldl_cons]
      refine (ih).trans ?_
      cases task.2 with
      | none => rfl
      | some r => exact exchanges_dropRequest

theorem AppState.mem_openExchange
    (member : exchange ∈ (middle.openExchange route request handling opened).exchanges) :
    exchange ∈ middle.exchanges ∨ exchange = { route, request, handling, opened } := by
  simpa [openExchange] using member

theorem AppState.mem_setHandling {moved : Exchange}
    (member : moved ∈ (middle.setHandling x exchange handling).exchanges) :
    moved ∈ middle.exchanges ∨ moved = { exchange with handling } :=
  List.mem_or_eq_of_mem_set member

section Tasks

variable {tasks : List (PluginId × Option ℕ)} {ended : List TaskEnd} {k : ℕ}

/-- Starting a task leaves its plugin where it is. -/
theorem map_fst_set {before : Option ℕ} (task : tasks[k]? = some (id, before)) (started : Option ℕ) :
    (tasks.set k (id, started)).map Prod.fst = tasks.map Prod.fst := by
  obtain ⟨inside, at_⟩ := List.getElem?_eq_some_iff.mp task
  have within : k < (tasks.map Prod.fst).length := by simpa using inside
  have same : (tasks.map Prod.fst)[k] = id := by simp [at_]
  rw [List.map_set]
  nth_rewrite 2 [← List.set_getElem_self within]
  rw [same]

/-- What is taken from one list and put into another is in one of them. -/
theorem moved_perm {β : Type} {before : List β} {rest last : List β} {moved : β}
    (taken : (moved :: rest).Perm before) : (rest ++ (last ++ [moved])).Perm (before ++ last) := by
  refine .trans ?_ (taken.append_right _)
  rw [← List.append_assoc, List.cons_append]
  exact List.perm_append_singleton moved _

theorem eraseIdx_perm {task : PluginId × Option ℕ} (found : tasks[k]? = some task) :
    (task :: tasks.eraseIdx k).Perm tasks := by
  obtain ⟨inside, at_⟩ := List.getElem?_eq_some_iff.mp found
  rw [← at_]
  exact List.getElem_cons_eraseIdx_perm inside

/-- A task that starts opens a request, beside those of the tasks that have. -/
theorem startedTasks_set (task : tasks[k]? = some (id, none)) :
    (startedTasks (tasks.set k (id, some r))).Perm ((id, r) :: startedTasks tasks) := by
  have inside := (List.getElem?_eq_some_iff.mp task).1
  have others := (eraseIdx_perm task).filterMap fun task => task.2.map fun r => (task.1, r)
  exact ((List.set_perm_cons_eraseIdx inside (id, some r)).filterMap _).trans (others.cons _)

end Tasks

variable [NumberText] {action : ServerAction}

theorem ServerMove.accounted (move : ServerMove setup app action after)
    (accounted : app.Accounted setup) : after.Accounted setup := by
  have shows : ∀ id, AppState.Shows setup id app after := fun id => move.shows
  have former : ∀ exchange ∈ app.exchanges, exchange.Accounted setup after :=
    fun exchange member => (accounted exchange member).later shows
  have known : ∀ {x : ℕ} {exchange : Exchange}, app.exchanges[x]? = some exchange →
      exchange.Accounted setup app :=
    fun found => accounted _ (List.mem_of_getElem? found)
  intro exchange member
  cases move with
  | ticked => exact former exchange member
  | refused barred =>
      obtain old | rfl := AppState.mem_openExchange member
      · exact former exchange old
      · exact Answer.refused barred rfl
  | answered passed handled =>
      obtain old | rfl := AppState.mem_openExchange member
      · exact former exchange old
      · exact Answer.inert passed handled rfl
  | ensured passed handled =>
      obtain old | rfl := AppState.mem_openExchange member
      · exact former exchange old
      · obtain ⟨named, registered⟩ := handle_ensure handled
        exact ⟨passed, named, registered, rfl⟩
  | @spread route request ids passed handled =>
      obtain old | rfl := AppState.mem_openExchange member
      · exact former exchange old
      · obtain ⟨named, rfl⟩ := handle_ensureAll handled
        refine ⟨passed, named, [], rfl, by simp, ?_, ?_⟩
        · simp [startedTasks, List.filterMap_map]
        · simp [Function.comp_def]
  | @started x k opened tasks joined id found at_ task =>
      obtain old | rfl := AppState.mem_setHandling member
      · exact former exchange old
      · have held := known found
        rw [Exchange.Accounted, at_] at held
        obtain ⟨passed, named, ended, same, done, own, complete⟩ := held
        refine ⟨passed, named, ended, same,
          fun id r exit member => (shows id).exit_kept (done id r exit member), ?_, ?_⟩
        · refine ((startedTasks_set task).append_right _).trans ?_
          exact (own.cons _).trans (List.perm_append_singleton _ _).symm
        · rw [map_fst_set task]
          exact complete
  | worked => exact former exchange member
  | @joined x k r opened tasks joined id exit found at_ task finished =>
      obtain old | rfl := AppState.mem_setHandling member
      · exact former exchange old
      · have held := known found
        rw [Exchange.Accounted, at_] at held
        obtain ⟨passed, named, ended, rfl, done, own, complete⟩ := held
        have taken := eraseIdx_perm task
        refine ⟨passed, named, ended ++ [((id, r), exit)], by simp [TaskEnd.result, taskResult],
          fun other s ending member => ?_, ?_, ?_⟩
        · rcases List.mem_append.mp member with early | last
          · exact done other s ending early
          · cases List.mem_singleton.mp last
            exact finished
        · have started : ((id, r) :: startedTasks (tasks.eraseIdx k)).Perm (startedTasks tasks) :=
            taken.filterMap fun task : PluginId × Option ℕ => task.2.map fun r => (task.1, r)
          rw [List.map_append]
          exact (moved_perm started).trans own
        · rw [List.map_append, List.map_append]
          exact (moved_perm (taken.map Prod.fst)).trans complete
  | pluginReplied found at_ done =>
      obtain old | rfl := AppState.mem_setHandling member
      · exact former exchange old
      · have held := known found
        rw [Exchange.Accounted, at_] at held
        obtain ⟨passed, named, registered, own⟩ := held
        exact Answer.plugin passed named registered own done
  | @allReplied x asked joined found at_ =>
      obtain old | rfl := AppState.mem_setHandling member
      · exact former exchange old
      · have held := known found
        rw [Exchange.Accounted, at_] at held
        obtain ⟨passed, named, ended, rfl, done, own, complete⟩ := held
        have own : (ended.map Prod.fst).Perm asked.opened := own
        exact Answer.all passed named own done ((own.map Prod.fst).symm.trans complete)
  | pluginAbandoned found at_ =>
      obtain old | rfl := AppState.mem_setHandling member
      · rw [AppState.exchanges_dropRequest] at old
        exact former exchange old
      · have held := known found
        rw [Exchange.Accounted, at_] at held
        exact ⟨held.1, .inr ⟨_, held.2.1⟩⟩
  | allAbandoned found at_ =>
      obtain old | rfl := AppState.mem_setHandling member
      · rw [AppState.exchanges_dropTasks] at old
        exact former exchange old
      · have held := known found
        rw [Exchange.Accounted, at_] at held
        exact ⟨held.1, .inl held.2.1⟩

theorem accounted_of_reachable (reachable : (serverSystem setup).Reachable app) :
    app.Accounted setup := by
  refine @TransitionSystem.Reachable.invariant _ _ (serverSystem setup)
    (fun app => app.Accounted setup) app (fun exchange member => ?_)
    (fun before action after accounted taken => (AppState.step_moves taken).accounted accounted)
    reachable
  simp [serverSystem] at member

end Steps

end GlancesRs
