import GlancesRs.Engine.Model
import GlancesRs.Server.Routes
import Mathlib.Logic.Function.Basic

namespace GlancesRs

open Data

/-! The whole server: the engines of all plugins over one `AppState`, and the
requests that reach its handlers. One action is the code a task runs between two
awaits, as in the engine of one plugin. -/

structure ServerSetup where
  crates : Crates
  security : SecurityCrates
  config : Config
  hostname : String

def ServerSetup.plugin (setup : ServerSetup) (id : PluginId) : Setup where
  crates := setup.crates
  config := setup.config
  hostname := setup.hostname
  id := id

/-- Where a handler stands. The tasks of `all_stats` have no request before they
first run; `joined` holds what `join_next` has returned. -/
inductive Handling where
  | ensuring (name : String) (id : PluginId) (r : ℕ)
  | joining (tasks : List (PluginId × Option ℕ)) (joined : List TaskResult)
  | replied (reply : Reply)
  | abandoned

structure Exchange where
  route : Route
  request : Request
  handling : Handling
  /-- The calls of `ensure_plugin` made for it, for the proofs. -/
  opened : List (PluginId × ℕ) := []

/-- The maps of `AppState`, with the tasks of each plugin beside them. -/
structure AppState where
  clock : Clock := .origin
  store : PluginId → Option Snapshot := fun _ => none
  lastRequest : PluginId → ℤ := fun _ => 0
  collectors : PluginId → Option Collector := fun _ => none
  alerts : Alerts
  loops : PluginId → List Loop := fun _ => []
  requests : PluginId → List PluginRequest := fun _ => []
  exchanges : List Exchange := []
  /-- As in `Engine`, for the proofs. -/
  touchedAt : PluginId → Option ℕ := fun _ => none
  committed : List Event := []

inductive ServerAction where
  | tick (elapsed : ℕ)
  | receive (route : Route) (request : Request)
  /-- Task `k` of exchange `x` runs for the first time. -/
  | startTask (x k : ℕ)
  | work (id : PluginId) (action : Action)
  | joinNext (x k : ℕ)
  | respond (x : ℕ)
  /-- The client is gone: the handler is dropped, and its tasks with it. -/
  | abandon (x : ℕ)

namespace AppState

variable (setup : ServerSetup) (app : AppState)

/-- What the tasks of one plugin see of the state. -/
def engine (id : PluginId) : Engine where
  clock := app.clock
  lastRequest := app.lastRequest id
  collectors := app.collectors id
  store := app.store id
  alerts := app.alerts
  loops := app.loops id
  requests := app.requests id
  touchedAt := app.touchedAt id
  committed := app.committed

def setEngine (id : PluginId) (engine : Engine) : AppState where
  clock := engine.clock
  store := Function.update app.store id engine.store
  lastRequest := Function.update app.lastRequest id engine.lastRequest
  collectors := Function.update app.collectors id engine.collectors
  alerts := engine.alerts
  loops := Function.update app.loops id engine.loops
  requests := Function.update app.requests id engine.requests
  exchanges := app.exchanges
  touchedAt := Function.update app.touchedAt id engine.touchedAt
  committed := engine.committed

/-- One mutex guards the registry of all plugins. -/
def lockHeld : Bool := PluginId.all.any fun id => (app.engine id).lockHeld

def activeCollectors : ℕ := (PluginId.all.filter fun id => (app.collectors id).isSome).length

def setHandling (x : ℕ) (exchange : Exchange) (handling : Handling) : AppState :=
  { app with exchanges := app.exchanges.set x { exchange with handling } }

def openExchange (route : Route) (request : Request) (handling : Handling)
    (opened : List (PluginId × ℕ) := []) : AppState :=
  { app with exchanges := app.exchanges ++ [{ route, request, handling, opened }] }

def ensurePlugin (id : PluginId) : AppState :=
  app.setEngine id ((app.engine id).ensurePlugin (setup.plugin id))

/-- A request through the layers and its handler, up to the handler's first await. -/
def receive [NumberText] (route : Route) (request : Request) : AppState :=
  match throughLayers setup.security setup.config route request with
  | .respond response => app.openExchange route request (.replied response.reply)
  | .next =>
      match handle setup.config app.alerts route with
      | .reply reply => app.openExchange route request (.replied reply)
      | .ensure name id =>
          let r := (app.requests id).length
          (app.ensurePlugin setup id).openExchange route request (.ensuring name id r) [(id, r)]
      | .ensureAll ids =>
          app.openExchange route request (.joining (ids.map fun id => (id, none)) [])

def startTask (x k : ℕ) : Option AppState := do
  let exchange ← app.exchanges[x]?
  match exchange.handling with
  | .joining tasks joined =>
      match ← tasks[k]? with
      | (id, none) =>
          let r := (app.requests id).length
          return (app.ensurePlugin setup id).setHandling x
            { exchange with opened := exchange.opened ++ [(id, r)] }
            (.joining (tasks.set k (id, some r)) joined)
      | (_, some _) => none
  | _ => none

/-- A step of a plugin's loop or of a request inside `ensure_plugin`. -/
def work [NumberText] (id : PluginId) (action : Action) : Option AppState :=
  match action with
  | .tick _ | .arrive | .drop _ | .observeOther _ _ _ => none
  | .lookup _ | .lock _ =>
      if app.lockHeld then none
      else ((app.engine id).step (setup.plugin id) action).map (app.setEngine id)
  | _ => ((app.engine id).step (setup.plugin id) action).map (app.setEngine id)

def exit (id : PluginId) (r : ℕ) : Option Exit := do
  let request ← (app.requests id)[r]?
  match request.phase with
  | .done exit => return exit
  | _ => none

def joinNext [NumberText] (x k : ℕ) : Option AppState := do
  let exchange ← app.exchanges[x]?
  match exchange.handling with
  | .joining tasks joined =>
      match ← tasks[k]? with
      | (id, some r) =>
          let exit ← app.exit id r
          return app.setHandling x exchange
            (.joining (tasks.eraseIdx k) (joined ++ [.ok (id, exit.result.map toVec)]))
      | (_, none) => none
  | _ => none

def respond [NumberText] (x : ℕ) : Option AppState := do
  let exchange ← app.exchanges[x]?
  match exchange.handling with
  | .ensuring name id r =>
      let exit ← app.exit id r
      return app.setHandling x exchange (.replied (pluginStats name exit.result))
  | .joining [] joined =>
      return app.setHandling x exchange (.replied
        { status := 200
          headers := [("content-type", "application/json")]
          body := allStats joined })
  | _ => none

/-- A request that is not done yet is dropped. -/
def dropRequest (id : PluginId) (r : ℕ) : AppState :=
  ((app.engine id).drop r).elim app (app.setEngine id)

def dropTasks (tasks : List (PluginId × Option ℕ)) : AppState :=
  tasks.foldl (fun app task => task.2.elim app (app.dropRequest task.1)) app

def abandon (x : ℕ) : Option AppState := do
  let exchange ← app.exchanges[x]?
  match exchange.handling with
  | .ensuring _ id r => return (app.dropRequest id r).setHandling x exchange .abandoned
  | .joining tasks _ => return (app.dropTasks tasks).setHandling x exchange .abandoned
  | _ => none

def step [NumberText] : ServerAction → Option AppState
  | .tick elapsed => (app.clock.advance? elapsed).map fun clock => { app with clock }
  | .receive route request => some (app.receive setup route request)
  | .startTask x k => app.startTask setup x k
  | .work id action => app.work setup id action
  | .joinNext x k => app.joinNext x k
  | .respond x => app.respond x
  | .abandon x => app.abandon x

end AppState

def serverSystem [NumberText] (setup : ServerSetup) : TransitionSystem AppState ServerAction where
  init := { alerts := { hostname := setup.hostname } }
  step app action := app.step setup action

end GlancesRs
