import GlancesRs.Api.All
import GlancesRs.Api.Limits
import GlancesRs.Server.Security

namespace GlancesRs

open Data

/-! The route table: the probes outside the security layers, the `/api/5` routes
behind them, and what each handler answers without waiting for a collector.
Which route a path matches is left to the router. -/

inductive Route where
  | status
  | healthz
  | pluginsList
  | all
  | alert
  | allInfo
  | allLimits
  | pluginInfo (name : String)
  | pluginLimits (name : String)
  | plugin (name : String)
deriving DecidableEq

/-- The probes live in their own router, which `apply_security` does not wrap. -/
def Route.secured : Route → Bool
  | .status | .healthz => false
  | _ => true

structure Reply where
  status : ℕ
  headers : List (String × String) := []
  body : List UInt8 := []
deriving DecidableEq

def Response.reply (response : Response) : Reply where
  status := response.status
  headers := response.headers
  body := utf8Bytes response.body.toList

def Reply.ok : Reply := { status := 200 }

section Json

variable [NumberText]

/-- A body of content type `application/json`. -/
def Reply.json (status : ℕ) (value : Json) : Reply where
  status := status
  headers := [("content-type", "application/json")]
  body := toVec value

def notFound (name : String) : Reply :=
  .json 404 (.object [("detail", .string s!"unknown plugin '{name}'")])

def guardElapsed (name : String) : Reply :=
  .json 503 (.object [("detail",
    .string s!"plugin '{name}': collection did not start within the guard timeout")])

end Json

/-- `apply_security`: the host is checked before the password. -/
def applySecurity (crates : SecurityCrates) (config : Config) (request : Request) : Layer :=
  match requireTrustedHost crates config request with
  | .respond response => .respond response
  | .next => requireAuth crates config request

def throughLayers (crates : SecurityCrates) (config : Config) (route : Route)
    (request : Request) : Layer :=
  if route.secured then applySecurity crates config request else .next

/-- `AppState::is_registered`. -/
def isRegistered (config : Config) (id : PluginId) : Bool := config.pluginEnabled id.asStr

/-- `PluginId::parse(&name).filter(|id| app.is_registered(*id))`. -/
def registeredPlugin (config : Config) (name : String) : Option PluginId :=
  (PluginId.parse name).filter (isRegistered config)

def pluginsList (config : Config) : List String :=
  ((PluginId.all.filter (isRegistered config)).map PluginId.asStr).insertionSort (· ≤ ·)

/-- The schemas of a plugin's fields. -/
def fieldsObj (config : Config) (id : PluginId) : List (String × Json) :=
  collectMembers FieldInfo.field (fun fi => some (fieldSchema config id fi)) (fields id)

def allInfo (config : Config) : List (String × Json) :=
  collectMembers PluginId.asStr
    (fun id => if isRegistered config id then some (.object (fieldsObj config id)) else none)
    PluginId.all

def allLimits (config : Config) : List (String × Json) :=
  collectMembers PluginId.asStr
    (fun id =>
      let limits := limitsFor config id
      if isRegistered config id && !limits.isEmpty then some (.object limits) else none)
    PluginId.all

/-- What a handler does first: answer, or start `ensure_plugin`. -/
inductive Handler where
  | reply (reply : Reply)
  | ensure (name : String) (id : PluginId)
  | ensureAll (ids : List PluginId)

def handle [NumberText] (config : Config) (alerts : Alerts) : Route → Handler
  | .status | .healthz => .reply .ok
  | .pluginsList => .reply (.json 200 (.array ((pluginsList config).map .string)))
  | .all => .ensureAll (PluginId.all.filter (isRegistered config))
  | .alert => .reply (.json 200 (.array alerts.history))
  | .allInfo => .reply (.json 200 (.object (allInfo config)))
  | .allLimits => .reply (.json 200 (.object (allLimits config)))
  | .pluginInfo name =>
      match registeredPlugin config name with
      | none => .reply (notFound name)
      | some id => .reply (.json 200 (.object (fieldsObj config id)))
  | .pluginLimits name =>
      match registeredPlugin config name with
      | none => .reply (notFound name)
      | some id => .reply (.json 200 (.object (limitsFor config id)))
  | .plugin name =>
      match registeredPlugin config name with
      | none => .reply (notFound name)
      | some id => .ensure name id

/-- The answer of `plugin_stats` to what `ensure_plugin` returned. -/
def pluginStats [NumberText] (name : String) : Except EnsureError Json → Reply
  | .ok body => .json 200 body
  | .error .notRegistered => notFound name
  | .error .timeout => guardElapsed name

end GlancesRs
