import GlancesRs.Alerts.Observe
import GlancesRs.Data.Clock
import GlancesRs.Data.TransitionSystem
import GlancesRs.Plugins.Filter

namespace GlancesRs

open Data

/-! The lazy collection engine of one plugin: its `plugin_loop` tasks, the
requests inside `ensure_plugin` and the parts of `AppState` they share. One
action is the code a task runs between two awaits, or less where a clock
reading or a lock stands in between; a panicking task has no successor. Times
are in nanoseconds since the server started. -/

structure Setup where
  crates : Crates
  config : Config
  hostname : String
  id : PluginId

/-- `watch::Receiver<bool>`: the channel whose sender the loop of that number owns. -/
structure Receiver where
  channel : ℕ
deriving DecidableEq

structure Collector where
  ready : Receiver
deriving DecidableEq

/-- A stored body. The loop that published it is recorded for the proofs. -/
structure Snapshot where
  body : Json
  publisher : ℕ

inductive LoopPhase where
  | collecting
  | observing (value : Json)
  | publishing (body : Json)
  | notifying
  | resting
  | sleeping (wakesAt : ℕ)
  | locking
  | rechecking
  | stopped

/-- One `plugin_loop` task with the value of its `ready` channel. Versions of
the value are left out: sending `true` again changes nothing a receiver reads.
The two counters are for the proofs. -/
structure Loop where
  refresh : Duration
  phase : LoopPhase := .collecting
  ready : Bool := false
  observed : ℕ := 0
  published : ℕ := 0

inductive Exit where
  | notRegistered
  | found (snapshot : Snapshot)
  | missingSnapshot
  | senderDropped
  | guardElapsed (waited : ℕ)

inductive EnsureError where
  | notRegistered
  | timeout
deriving DecidableEq

def Exit.result : Exit → Except EnsureError Json
  | .notRegistered => .error .notRegistered
  | .found snapshot => .ok snapshot.body
  | .missingSnapshot | .senderDropped | .guardElapsed _ => .error .timeout

/-- Where a request stands in `ensure_plugin`; it may be dropped at any await. -/
inductive RequestPhase where
  | locking
  | waiting (ready : Receiver) (since : ℕ)
  | reading
  | done (exit : Exit)
  | dropped

structure PluginRequest where
  phase : RequestPhase
  arrivedAt : ℕ
  joined : Option ℕ := none

structure Engine where
  clock : Clock := .origin
  lastRequest : ℤ := 0
  collectors : Option Collector := none
  store : Option Snapshot := none
  alerts : Alerts
  loops : List Loop := []
  requests : List PluginRequest := []
  /-- The time of the latest touch, for the proofs. -/
  touchedAt : Option ℕ := none
  /-- Every event committed to the journal, before eviction, for the proofs. -/
  committed : List Event := []

inductive Action where
  | tick (elapsed : ℕ)
  | arrive
  | lookup (r : ℕ)
  | poll (r : ℕ)
  | read (r : ℕ)
  | drop (r : ℕ)
  | collect (l : ℕ) (value : Json)
  | observe (l : ℕ) (nowSys : SystemTime)
  | publish (l : ℕ)
  | setReady (l : ℕ)
  | sleep (l : ℕ)
  | idleCheck (l : ℕ)
  | lock (l : ℕ)
  | recheck (l : ℕ)
  /-- A cycle of some other plugin, on the shared journal. -/
  | observeOther (id : PluginId) (nowSys : SystemTime) (value : Json)

namespace Engine

variable (setup : Setup) (engine : Engine)

def now : ℕ := engine.clock.nanos

def touch : Engine :=
  { engine with lastRequest := engine.clock.nowMillis, touchedAt := some engine.now }

def idleFor : Duration := sinceMillis engine.clock engine.lastRequest

def lockHeld : Bool :=
  engine.loops.any fun loop => match loop.phase with | .rechecking => true | _ => false

def setRequest (r : ℕ) (request : PluginRequest) : Engine :=
  { engine with requests := engine.requests.set r request }

def setLoop (l : ℕ) (loop : Loop) : Engine :=
  { engine with loops := engine.loops.set l loop }

def ensurePlugin : Engine :=
  if setup.config.pluginEnabled setup.id.asStr then
    { engine.touch with
      requests := engine.requests ++ [{ phase := .locking, arrivedAt := engine.now }] }
  else
    { engine with
      requests := engine.requests ++ [{ phase := .done .notRegistered, arrivedAt := engine.now }] }

def join (r : ℕ) (request : PluginRequest) (ready : Receiver) : Engine :=
  engine.setRequest r
    { request with phase := .waiting ready engine.now, joined := some ready.channel }

def spawn (refresh : Duration) : Engine :=
  { engine with
    collectors := some ⟨⟨engine.loops.length⟩⟩
    loops := engine.loops ++ [{ refresh }] }

/-- Under the registry lock; then the guard timeout starts. -/
def lookup (r : ℕ) : Option Engine := do
  let request ← engine.requests[r]?
  match request.phase with
  | .locking =>
      if engine.lockHeld then none
      else
        let _ ← setup.config.guardTimeout
        match engine.collectors with
        | some collector => return engine.join r request collector.ready
        | none =>
            let refresh ← spawnPlugin setup.crates setup.config setup.id
            return (engine.spawn refresh).join r request ⟨engine.loops.length⟩
  | _ => none

/-- One poll of `timeout(guard_timeout, first_cycle)`: the value first, then
whether the sender is gone, then the timer. -/
def poll (r : ℕ) : Option Engine := do
  let request ← engine.requests[r]?
  match request.phase with
  | .waiting ready since =>
      let loop ← engine.loops[ready.channel]?
      let guard ← setup.config.guardTimeout
      if loop.ready then return engine.setRequest r { request with phase := .reading }
      else
        match loop.phase with
        | .stopped => return engine.setRequest r { request with phase := .done .senderDropped }
        | _ =>
            if since + guard.nanos ≤ engine.now then
              return engine.setRequest r
                { request with phase := .done (.guardElapsed (engine.now - since)) }
            else none
  | _ => none

def snapshot : Exit := engine.store.elim .missingSnapshot .found

def read (r : ℕ) : Option Engine := do
  let request ← engine.requests[r]?
  match request.phase with
  | .reading => return engine.setRequest r { request with phase := .done engine.snapshot }
  | _ => none

def drop (r : ℕ) : Option Engine := do
  let request ← engine.requests[r]?
  match request.phase with
  | .locking | .waiting _ _ | .reading => return engine.setRequest r { request with phase := .dropped }
  | _ => none

/-- One `collect`; what the plugin reads from the system is the action's. -/
def collect (l : ℕ) (value : Json) : Option Engine := do
  let loop ← engine.loops[l]?
  -- Computed when the task starts: a panic there leaves nothing to collect.
  let _ ← setup.config.idleTimeoutFor setup.id.asStr
  match loop.phase with
  | .collecting => return engine.setLoop l { loop with phase := .observing value }
  | _ => none

def record (out : Observed) : Engine :=
  { engine with alerts := out.alerts, committed := engine.committed ++ out.committed }

def observe [NumberText] (l : ℕ) (nowSys : SystemTime) : Option Engine := do
  let loop ← engine.loops[l]?
  match loop.phase with
  | .observing value =>
      let out ← engine.alerts.observe setup.config
        { plugin := setup.id, now := engine.now, nowSys, payload := value }
      return (engine.record out).setLoop l
        { loop with phase := .publishing out.value, observed := loop.observed + 1 }
  | _ => none

def publish (l : ℕ) : Option Engine := do
  let loop ← engine.loops[l]?
  match loop.phase with
  | .publishing body =>
      return ({ engine with store := some { body, publisher := l } } : Engine).setLoop l
        { loop with phase := .notifying, published := loop.published + 1 }
  | _ => none

def setReady (l : ℕ) : Option Engine := do
  let loop ← engine.loops[l]?
  match loop.phase with
  | .notifying => return engine.setLoop l { loop with phase := .resting, ready := true }
  | _ => none

def sleep (l : ℕ) : Option Engine := do
  let loop ← engine.loops[l]?
  match loop.phase with
  | .resting =>
      return engine.setLoop l { loop with phase := .sleeping (engine.now + loop.refresh.nanos) }
  | _ => none

def idleCheck (l : ℕ) : Option Engine := do
  let loop ← engine.loops[l]?
  let idleTimeout ← setup.config.idleTimeoutFor setup.id.asStr
  match loop.phase with
  | .sleeping wakesAt =>
      if wakesAt ≤ engine.now then
        return engine.setLoop l
          { loop with phase := if idleTimeout ≤ engine.idleFor then .locking else .collecting }
      else none
  | _ => none

def lock (l : ℕ) : Option Engine := do
  let loop ← engine.loops[l]?
  match loop.phase with
  | .locking =>
      if engine.lockHeld then none
      else return engine.setLoop l { loop with phase := .rechecking }
  | _ => none

/-- Under the registry lock, which both branches release. -/
def recheck (l : ℕ) : Option Engine := do
  let loop ← engine.loops[l]?
  let idleTimeout ← setup.config.idleTimeoutFor setup.id.asStr
  match loop.phase with
  | .rechecking =>
      if idleTimeout ≤ engine.idleFor then
        return ({ engine with collectors := none } : Engine).setLoop l { loop with phase := .stopped }
      else return engine.setLoop l { loop with phase := .collecting }
  | _ => none

def observeOther [NumberText] (id : PluginId) (nowSys : SystemTime) (value : Json) :
    Option Engine := do
  if id = setup.id then none
  else
    let out ← engine.alerts.observe setup.config
      { plugin := id, now := engine.now, nowSys, payload := value }
    return engine.record out

def step [NumberText] : Action → Option Engine
  | .tick elapsed => (engine.clock.advance? elapsed).map fun clock => { engine with clock }
  | .arrive => some (engine.ensurePlugin setup)
  | .lookup r => engine.lookup setup r
  | .poll r => engine.poll setup r
  | .read r => engine.read r
  | .drop r => engine.drop r
  | .collect l value => engine.collect setup l value
  | .observe l nowSys => engine.observe setup l nowSys
  | .publish l => engine.publish l
  | .setReady l => engine.setReady l
  | .sleep l => engine.sleep l
  | .idleCheck l => engine.idleCheck setup l
  | .lock l => engine.lock l
  | .recheck l => engine.recheck setup l
  | .observeOther id nowSys value => engine.observeOther setup id nowSys value

end Engine

def engineSystem [NumberText] (setup : Setup) : TransitionSystem Engine Action where
  init := { alerts := { hostname := setup.hostname } }
  step engine action := engine.step setup action

end GlancesRs
