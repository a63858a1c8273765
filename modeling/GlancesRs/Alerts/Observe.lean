import GlancesRs.Alerts.Reconcile

namespace GlancesRs

open Data

/-! The alert engine: one `observe` call per collection cycle, over state shared
by all plugins. -/

/-- A `std::time::SystemTime`, in nanoseconds since the Unix epoch. -/
abbrev SystemTime := ℤ

def zeroPadded (width : ℕ) (number : ℤ) : String :=
  let sign := if number < 0 then "-" else ""
  let digits := toString number.natAbs
  sign ++ .ofList (List.replicate (width - sign.length - digits.length) '0') ++ digits

/-- `YYYY-MM-DDThh:mm:ssZ`, by the civil calendar of 400-year eras. -/
def iso8601Utc (t : SystemTime) : String :=
  let secs := if t < 0 then 0 else t / 10 ^ 9
  let days := secs / 86400
  let tod := secs % 86400
  let z := days + 719468
  let era := z / 146097
  let doe := z - era * 146097
  let yoe := (doe - doe / 1460 + doe / 36524 - doe / 146096) / 365
  let year := yoe + era * 400
  let doy := doe - (365 * yoe + yoe / 4 - yoe / 100)
  let mp := (5 * doy + 2) / 153
  let day := doy - (153 * mp + 2) / 5 + 1
  let month := if mp < 10 then mp + 3 else mp - 9
  let year := if month ≤ 2 then year + 1 else year
  let date := s!"{zeroPadded 4 year}-{zeroPadded 2 month}-{zeroPadded 2 day}"
  let time := s!"{zeroPadded 2 (tod / 3600)}:{zeroPadded 2 (tod % 3600 / 60)}:{zeroPadded 2 (tod % 60)}"
  s!"{date}T{time}Z"

/-- A journal entry before it is rendered. -/
structure Event where
  ts : SystemTime
  plugin : PluginId
  key : Option String
  field : String
  level : Level
  previousLevel : Level
  value : Float
  prominent : Bool
  isInitial : Bool
  hostname : String
deriving DecidableEq

def Event.toJson (event : Event) : Json :=
  .object [
    ("field", .string event.field),
    ("hostname", .string event.hostname),
    ("is_initial", .bool event.isInitial),
    ("key", event.key.elim .null .string),
    ("level", .string event.level.asStr),
    ("plugin", .string event.plugin.asStr),
    ("previous_level", .string event.previousLevel.asStr),
    ("prominent", .bool event.prominent),
    ("ts", .string (iso8601Utc event.ts)),
    ("value", .ofF64 event.value)]

def buildEvent (hostname : String) (id : PluginId) (key : Option String) (af : FieldInfo)
    (tr : Transition) (value : Float) (ts : SystemTime) : Event where
  ts := ts
  plugin := id
  key := key
  field := af.field
  level := tr.new
  previousLevel := tr.previous
  value := value
  prominent := af.prominent
  isInitial := tr.isInitial
  hostname := hostname

structure StateKey where
  plugin : PluginId
  key : Option String
  field : String
deriving DecidableEq

structure Inner where
  history : List Event := []
  state : StateKey → Option AlertState := fun _ => none
  lastSeen : PluginId → Option Instant := fun _ => none

structure Alerts where
  inner : Inner := {}
  hostname : String

/-- The journal as served, most recent last. -/
def Alerts.history (alerts : Alerts) : List Json :=
  alerts.inner.history.map Event.toJson

structure Observation where
  key : Option String
  af : FieldInfo
  level : Level
  raw : Float

def Observation.stateKey (id : PluginId) (o : Observation) : StateKey := ⟨id, o.key, o.af.field⟩

def hasThresholds (config : Config) (id : PluginId) : Bool :=
  ((config.plugins.lookup id.asStr).any fun p =>
    !p.thresholds.entries.isEmpty || !p.thresholdsByItem.entries.isEmpty) ||
  (config.alerts.useBuiltinDefaults && (alertFields id).any fun f => f.defaults.isSome)

def observations (config : Config) (id : PluginId) (key : Option String) (stats : Json) :
    List Observation :=
  (alertFields id).filterMap fun af =>
    (levelFor config id key af stats).map fun (level, raw) => { key, af, level, raw }

def levelMap (observed : List Observation) : List (String × Json) :=
  observed.foldl (fun levels o => insertMember o.af.field (levelEntry o.level o.af.prominent) levels) []

structure Scan where
  live : List String := []
  levels : List (String × Json) := []
  observations : List Observation := []

def primaryKey [NumberText] (pkField : String) (item : Json) : Option String :=
  (item.get? pkField).bind jsonKey

/-- An item without a usable primary key is skipped. -/
def Scan.item [NumberText] (config : Config) (id : PluginId) (pkField : String) (scan : Scan)
    (item : Json) : Scan :=
  match primaryKey pkField item with
  | none => scan
  | some pk =>
      let observed := GlancesRs.observations config id (some pk) item
      { live := scan.live ++ [pk]
        levels :=
          if observed.isEmpty then scan.levels
          else insertMember pk (.object (levelMap observed)) scan.levels
        observations := scan.observations ++ observed }

def items (value : Json) : List Json :=
  ((value.get? "data").bind Json.asArray?).getD []

/-- One pass over the payload: the levels to publish, what was observed and, for
a collection, the keys of the items present. -/
def scan [NumberText] (config : Config) (id : PluginId) (value : Json) : Scan :=
  match id.keyField with
  | none =>
      let observed := observations config id none value
      { levels := levelMap observed, observations := observed }
  | some pkField => (items value).foldl (Scan.item config id pkField) {}

def Inner.resetPending (inner : Inner) (id : PluginId) : Inner :=
  { inner with
    state := fun k =>
      if k.plugin = id then (inner.state k).map AlertState.clearPending else inner.state k }

def Inner.prune (inner : Inner) (id : PluginId) (live : List String) : Inner :=
  { inner with
    state := fun k =>
      if k.plugin ≠ id ∨ k.key.all live.contains then inner.state k else none }

/-- The plugin's cycle is noted, then both sweeps run: what the reconcile loop
starts from. -/
def Inner.sweep (inner : Inner) (id : PluginId) (now : Instant) (reset : Bool) (live : List String) :
    Inner :=
  let inner :=
    { inner with lastSeen := fun other => if other = id then some now else inner.lastSeen other }
  let inner := if reset then inner.resetPending id else inner
  if id.keyField.isSome then inner.prune id live else inner

def Inner.setState (inner : Inner) (sk : StateKey) (st : AlertState) : Inner :=
  { inner with state := fun k => if k = sk then some st else inner.state k }

def Inner.record (inner : Inner) (historySize : ℕ) (event : Event) : Inner :=
  let history := inner.history ++ [event]
  { inner with history := history.drop (history.length - historySize) }

structure Cycle where
  plugin : PluginId
  now : Instant
  nowSys : SystemTime
  payload : Json

def reconcileObservation (hostname : String) (cycle : Cycle) (minDuration : Duration)
    (historySize : ℕ) (inner : Inner) (o : Observation) : Option (Inner × Option Event) := do
  let sk := o.stateKey cycle.plugin
  let (st, transition) ← reconcile ((inner.state sk).getD {}) o.level cycle.now minDuration
  let inner := inner.setState sk st
  match transition with
  | none => return (inner, none)
  | some tr =>
      let event := buildEvent hostname cycle.plugin o.key o.af tr o.raw cycle.nowSys
      return (inner.record historySize event, some event)

/-- The reconcile loop, with the events it appends before any is evicted. -/
def reconcileAll (hostname : String) (cycle : Cycle) (minDuration : Duration) (historySize : ℕ)
    (inner : Inner) : List Observation → Option (Inner × List Event)
  | [] => some (inner, [])
  | o :: rest => do
      let (inner, event) ← reconcileObservation hostname cycle minDuration historySize inner o
      let (inner, events) ← reconcileAll hostname cycle minDuration historySize inner rest
      return (inner, event.toList ++ events)

/-- The result of one call; `committed` lists the events it appended, before eviction. -/
structure Observed where
  alerts : Alerts
  value : Json
  committed : List Event := []

def gapReset (refresh : Duration) (lastSeen : Option Instant) (now : Instant) : Option Bool :=
  match lastSeen with
  | some prev => (refresh.mul? 2).map fun twice => twice.nanos < now - prev
  | none => some false

/-- One cycle's alerting; `none` where the call panics. -/
def Alerts.observe [NumberText] (config : Config) (alerts : Alerts) (cycle : Cycle) :
    Option Observed :=
  let id := cycle.plugin
  let value := cycle.payload
  if (alertFields id).isEmpty then some { alerts, value }
  else if !hasThresholds config id then some { alerts, value }
  else do
    let minDuration ← effectiveMinDuration config id
    let refresh ← config.refreshFor id.asStr
    let reset ← gapReset refresh (alerts.inner.lastSeen id) cycle.now
    let scanned := scan config id value
    let value ← value.setKey? "_levels" (.object scanned.levels)
    let inner := alerts.inner.sweep id cycle.now reset scanned.live
    let (inner, committed) ← reconcileAll alerts.hostname cycle minDuration config.alerts.historySize
      inner scanned.observations
    return { alerts := { alerts with inner }, value, committed }

end GlancesRs
