import GlancesRs.Server.BasicAuth
import GlancesRs.Server.Exposure
import GlancesRs.Server.Refinement

namespace GlancesRs

open Data

/-! What never wakes a collector. A plugin is asked for by a request for its stats
or for all stats that the layers let through; until then nothing of it exists. -/

variable {setup : ServerSetup} {app after : AppState} {id other : PluginId} {r x : ℕ}
variable {exchange : Exchange}

def Exchange.Asks (setup : ServerSetup) (id : PluginId) (exchange : Exchange) : Prop :=
  throughLayers setup.security setup.config exchange.route exchange.request = .next ∧
    isRegistered setup.config id = true ∧ (exchange.route = .plugin id.asStr ∨ exchange.route = .all)

def AppState.Asked (setup : ServerSetup) (app : AppState) (id : PluginId) : Prop :=
  ∃ exchange ∈ app.exchanges, exchange.Asks setup id

/-- The engine of a plugin as the server starts with it. -/
structure Engine.Untouched (engine : Engine) : Prop where
  lastRequest : engine.lastRequest = 0
  collectors : engine.collectors = none
  store : engine.store = none
  loops : engine.loops = []
  requests : engine.requests = []
  touchedAt : engine.touchedAt = none

section Engines

variable {single : Setup} {engine next : Engine} {action : Action}

theorem Engine.Untouched.congr (untouched : engine.Untouched) {clock : Clock} {alerts : Alerts}
    {committed : List Event} : ({ engine with clock, alerts, committed } : Engine).Untouched :=
  ⟨untouched.lastRequest, untouched.collectors, untouched.store, untouched.loops, untouched.requests,
    untouched.touchedAt⟩

theorem Engine.Untouched.drop (untouched : engine.Untouched) : engine.drop r = none := by
  simp [Engine.drop, untouched.requests]

/-- Without a loop or a request there is nothing to do but to wait for one. -/
theorem Moves.stays_untouched [NumberText] (moves : Moves single engine action next)
    (unserved : action ≠ .arrive) (untouched : engine.Untouched) : next.Untouched := by
  have noRequest : ∀ {r : ℕ} {request : PluginRequest}, engine.requests[r]? ≠ some request := by
    simp [untouched.requests]
  have noLoop : ∀ {l : ℕ} {loop : Loop}, engine.loops[l]? ≠ some loop := by
    simp [untouched.loops]
  cases moves with
  | ticked | observedOther => exact untouched.congr
  | refused | touched => exact absurd rfl unserved
  | joined found | spawned found | request found => exact absurd found noRequest
  | loop found | observed found | published found | removed found => exact absurd found noLoop

theorem Engine.step_journal [NumberText] (taken : engine.step single action = some next)
    (untouched : engine.Untouched) (own : ∀ id nowSys value, action ≠ .observeOther id nowSys value) :
    next.alerts = engine.alerts ∧ next.committed = engine.committed := by
  cases step_moves taken with
  | observed found => simp [untouched.loops] at found
  | observedOther => exact absurd rfl (own _ _ _)
  | _ => exact ⟨rfl, rfl⟩

end Engines

section Untouched

theorem AppState.untouched_setEngine_of_ne {engine : Engine} (different : id ≠ other)
    (untouched : (app.engine id).Untouched) : ((app.setEngine other engine).engine id).Untouched := by
  rw [engine_setEngine_of_ne different]
  exact untouched.congr

theorem AppState.untouched_dropRequest (untouched : (app.engine id).Untouched) :
    ((app.dropRequest other r).engine id).Untouched := by
  rw [dropRequest]
  cases dropped : (app.engine other).drop r with
  | none => exact untouched
  | some next =>
      by_cases same : id = other
      · subst same
        rw [untouched.drop] at dropped
        cases dropped
      · exact untouched_setEngine_of_ne same untouched

theorem AppState.untouched_dropTasks (tasks : List (PluginId × Option ℕ))
    (untouched : (app.engine id).Untouched) : ((app.dropTasks tasks).engine id).Untouched := by
  induction tasks generalizing app with
  | nil => exact untouched
  | cons task rest ih =>
      rw [dropTasks, List.foldl_cons]
      refine ih ?_
      cases task.2 with
      | none => exact untouched
      | some r => exact untouched_dropRequest untouched

theorem AppState.shared_ensurePlugin :
    (app.ensurePlugin setup id).clock = app.clock ∧ (app.ensurePlugin setup id).alerts = app.alerts ∧
      (app.ensurePlugin setup id).committed = app.committed := by
  rw [ensurePlugin]
  cases enabled : (setup.plugin id).config.pluginEnabled (setup.plugin id).id.asStr with
  | false =>
      rw [Engine.ensurePlugin_disabled enabled]
      exact ⟨rfl, rfl, rfl⟩
  | true =>
      rw [Engine.ensurePlugin_enabled enabled]
      exact ⟨rfl, rfl, rfl⟩

theorem AppState.shared_dropRequest :
    (app.dropRequest id r).clock = app.clock ∧ (app.dropRequest id r).alerts = app.alerts ∧
      (app.dropRequest id r).committed = app.committed := by
  rw [dropRequest]
  cases dropped : (app.engine id).drop r with
  | none => exact ⟨rfl, rfl, rfl⟩
  | some next =>
      obtain ⟨request, _, rest⟩ := Option.bind_eq_some_iff.mp dropped
      split at rest <;> cases rest <;> exact ⟨rfl, rfl, rfl⟩

theorem AppState.shared_dropTasks (tasks : List (PluginId × Option ℕ)) :
    (app.dropTasks tasks).clock = app.clock ∧ (app.dropTasks tasks).alerts = app.alerts ∧
      (app.dropTasks tasks).committed = app.committed := by
  induction tasks generalizing app with
  | nil => exact ⟨rfl, rfl, rfl⟩
  | cons task rest ih =>
      rw [dropTasks, List.foldl_cons]
      obtain ⟨clock, alerts, committed⟩ := @ih (task.2.elim app (app.dropRequest task.1))
      cases started : task.2 with
      | none =>
          rw [started] at clock alerts committed
          exact ⟨clock, alerts, committed⟩
      | some r =>
          rw [started] at clock alerts committed
          obtain ⟨zeroth, first, second⟩ := @shared_dropRequest app task.1 r
          exact ⟨clock.trans zeroth, alerts.trans first, committed.trans second⟩

end Untouched

section Steps

variable [NumberText] {action : ServerAction}

/-- An exchange keeps its route and its request. -/
theorem ServerMove.exchange_kept (move : ServerMove setup app action after)
    (found : app.exchanges[x]? = some exchange) :
    ∃ handling opened, after.exchanges[x]? = some { exchange with handling, opened } := by
  have appended : ∀ more, (app.exchanges ++ more)[x]? = some exchange := by
    intro more
    rw [List.getElem?_append_left (List.getElem?_eq_some_iff.mp found).1, found]
  have handled : ∀ {k : ℕ} {other : Exchange} (handling : Handling) (opened : List (PluginId × ℕ)),
      app.exchanges[k]? = some other → ∃ last more,
      (app.exchanges.set k { other with handling, opened })[x]? =
        some { exchange with handling := last, opened := more } := by
    intro k other handling opened known
    by_cases same : k = x
    · subst same
      rw [found] at known
      cases known
      exact ⟨handling, opened, List.getElem?_set_self (List.getElem?_eq_some_iff.mp found).1⟩
    · exact ⟨exchange.handling, exchange.opened, (List.getElem?_set_ne same).trans found⟩
  cases move with
  | ticked | worked => exact ⟨exchange.handling, exchange.opened, found⟩
  | refused | answered | ensured | spread =>
      exact ⟨exchange.handling, exchange.opened, appended _⟩
  | @started _ _ asked _ _ id known => exact @handled _ asked _ (asked.opened ++ [(id, _)]) known
  | joined known | pluginReplied known | allReplied known => exact handled _ _ known
  | pluginAbandoned known =>
      rw [AppState.setHandling, AppState.exchanges_dropRequest]
      exact handled _ _ known
  | allAbandoned known =>
      rw [AppState.setHandling, AppState.exchanges_dropTasks]
      exact handled _ _ known

theorem ServerMove.asked (move : ServerMove setup app action after) (asked : app.Asked setup id) :
    after.Asked setup id := by
  obtain ⟨exchange, member, asks⟩ := asked
  obtain ⟨x, found⟩ := List.mem_iff_getElem?.mp member
  obtain ⟨handling, opened, kept⟩ := move.exchange_kept found
  exact ⟨_, List.mem_of_getElem? kept, asks⟩

/-- Only a request that asks for a plugin touches its engine. -/
theorem ServerMove.untouched (move : ServerMove setup app action after)
    (accounted : app.Accounted setup) (untouched : (app.engine id).Untouched) :
    (after.engine id).Untouched ∨ after.Asked setup id := by
  cases move with
  | ticked => exact .inl untouched.congr
  | refused | answered | spread | joined | pluginReplied | allReplied => exact .inl untouched
  | @ensured route request name other passed handled =>
      obtain ⟨named, known⟩ := handle_ensure handled
      by_cases same : id = other
      · subst same
        obtain ⟨rfl, registered⟩ := registeredPlugin_eq_some.mp known
        exact .inr ⟨_, List.mem_append_right _ (List.mem_singleton_self _), passed, registered, .inl named⟩
      · exact .inl (AppState.untouched_setEngine_of_ne same untouched)
  | @started x k exchange tasks joined other found at_ task =>
      by_cases same : id = other
      · subst same
        have held := accounted exchange (List.mem_of_getElem? found)
        rw [Exchange.Accounted, at_] at held
        obtain ⟨passed, named, _, _, _, _, complete⟩ := held
        have listed : id ∈ tasks.map Prod.fst := List.mem_map_of_mem (List.mem_of_getElem? task)
        have registered := (List.mem_filter.mp
          (complete.mem_iff.mp (List.mem_append_left _ listed))).2
        have inside := (List.getElem?_eq_some_iff.mp found).1
        refine .inr ⟨_, List.mem_of_getElem? (List.getElem?_set_self inside), passed, registered, .inr named⟩
      · exact .inl (AppState.untouched_setEngine_of_ne same untouched)
  | @worked other action next stepped _ served _ own _ =>
      by_cases same : id = other
      · subst same
        rw [AppState.engine_setEngine_self]
        exact .inl ((Engine.step_moves stepped).stays_untouched served untouched)
      · exact .inl (AppState.untouched_setEngine_of_ne same untouched)
  | pluginAbandoned => exact .inl (AppState.untouched_dropRequest untouched)
  | allAbandoned => exact .inl (AppState.untouched_dropTasks _ untouched)

theorem ServerMove.journal (move : ServerMove setup app action after)
    (untouched : ∀ id, (app.engine id).Untouched) :
    after.alerts = app.alerts ∧ after.committed = app.committed := by
  cases move with
  | ensured | started => exact AppState.shared_ensurePlugin.2
  | worked stepped _ _ _ own _ => exact Engine.step_journal stepped (untouched _) own
  | pluginAbandoned => exact AppState.shared_dropRequest.2
  | allAbandoned => exact (AppState.shared_dropTasks _).2
  | _ => exact ⟨rfl, rfl⟩

theorem untouched_of_reachable (reachable : (serverSystem setup).Reachable app) (id : PluginId) :
    (app.engine id).Untouched ∨ app.Asked setup id := by
  refine @TransitionSystem.Reachable.invariant_of_reachable _ _ (serverSystem setup)
    (fun app => (app.engine id).Untouched ∨ app.Asked setup id) app
    (.inl ⟨rfl, rfl, rfl, rfl, rfl, rfl⟩) (fun before action after reached quiet taken => ?_) reachable
  have move := AppState.step_moves taken
  rcases quiet with untouched | asked
  · exact move.untouched (accounted_of_reachable reached) untouched
  · exact .inr (move.asked asked)

theorem journal_of_reachable (reachable : (serverSystem setup).Reachable app) :
    (app.alerts = { hostname := setup.hostname } ∧ app.committed = []) ∨ ∃ id, app.Asked setup id := by
  refine @TransitionSystem.Reachable.invariant_of_reachable _ _ (serverSystem setup)
    (fun app => (app.alerts = { hostname := setup.hostname } ∧ app.committed = []) ∨
      ∃ id, app.Asked setup id) app
    (.inl ⟨rfl, rfl⟩) (fun before action after reached quiet taken => ?_) reachable
  have move := AppState.step_moves taken
  by_cases asked : ∃ id, before.Asked setup id
  · obtain ⟨id, asked⟩ := asked
    exact .inr ⟨id, move.asked asked⟩
  · obtain ⟨alerts, committed⟩ := quiet.resolve_right asked
    obtain ⟨sameAlerts, sameCommitted⟩ := move.journal fun id =>
      (untouched_of_reachable reached id).resolve_right (not_exists.mp asked id)
    exact .inl ⟨sameAlerts.trans alerts, sameCommitted.trans committed⟩

/-- Whatever requests arrive, a plugin nobody was let through to ask for has no
request, loop, entry, snapshot or touch, and if none was asked for the journal is
as at startup. -/
theorem inert_until_asked (reachable : (serverSystem setup).Reachable app) :
    (∀ id, (∀ exchange ∈ app.exchanges, ¬ exchange.Asks setup id) → (app.engine id).Untouched) ∧
      ((∀ id, ∀ exchange ∈ app.exchanges, ¬ exchange.Asks setup id) →
        app.activeCollectors = 0 ∧ app.alerts = { hostname := setup.hostname } ∧ app.committed = []) := by
  have quiet : ∀ id, (∀ exchange ∈ app.exchanges, ¬ exchange.Asks setup id) → ¬ app.Asked setup id := by
    intro id unasked asked
    obtain ⟨exchange, member, asks⟩ := asked
    exact unasked exchange member asks
  have untouched : ∀ id, (∀ exchange ∈ app.exchanges, ¬ exchange.Asks setup id) →
      (app.engine id).Untouched :=
    fun id unasked => (untouched_of_reachable reachable id).resolve_right (quiet id unasked)
  refine ⟨untouched, fun unasked => ⟨?_, ?_⟩⟩
  · rw [AppState.activeCollectors, List.length_eq_zero_iff, List.filter_eq_nil_iff]
    intro id _ active
    have none : app.collectors id = none := (untouched id (unasked id)).collectors
    simp [none] at active
  · refine (journal_of_reachable reachable).resolve_right fun asked => ?_
    obtain ⟨id, asked⟩ := asked
    exact quiet id (unasked id) asked

end Steps

/-- Every route but the two that wake, and a name that is no plugin's. -/
def idleTraffic : List ServerAction :=
  ([.status, .healthz, .pluginsList, .alert, .allInfo, .allLimits, .pluginInfo "mem", .pluginLimits "fs",
    .plugin "gpu"] : List Route).map (fun route => .receive route { headers := [] }) ++ [.tick (10 ^ 9)]

theorem idleTraffic_inert_until_asked : ∃ app,
    (@serverSystem .integers defaultServer).run (@serverSystem .integers defaultServer).init
      idleTraffic = some app ∧ app.exchanges.length = 9 ∧ app.activeCollectors = 0 := by
  have served : ((@serverSystem .integers defaultServer).run
      (@serverSystem .integers defaultServer).init idleTraffic).map (fun app =>
        (app.exchanges.length, app.exchanges.all fun exchange =>
          exchange.route != .all && PluginId.all.all fun id => exchange.route != .plugin id.asStr)) =
      some (9, true) := by
    decide +kernel
  obtain ⟨app, ran, shown⟩ := Option.map_eq_some_iff.mp served
  simp only [Prod.mk.injEq, List.all_eq_true, Bool.and_eq_true, bne_iff_ne] at shown
  obtain ⟨nine, elsewhere⟩ := shown
  refine ⟨app, ran, nine, ((@inert_until_asked defaultServer app .integers ⟨_, ran⟩).2 ?_).1⟩
  intro id exchange member asks
  obtain ⟨_, _, named | named⟩ := asks
  · exact (elsewhere exchange member).2 id id.mem_all named
  · exact (elsewhere exchange member).1 named

section Closed

/-- Without the secret no secured route lets a request through. -/
theorem throughLayers_barred (documented : setup.security.Documented) {secret : String}
    (configured : setup.config.server.password = some secret) {route : Route} {request : Request}
    (secured : route.secured = true) (unknown : ¬ request.Presents setup.security secret) :
    throughLayers setup.security setup.config route request ≠ .next := by
  intro passed
  obtain ⟨_, authorized⟩ := throughLayers_next_iff.mp passed secured
  exact unknown ((requireAuth_next_iff documented configured).mp authorized)

variable [NumberText]

/-- The refusal of a request without the secret: the host is checked first. -/
def refusal (setup : ServerSetup) (request : Request) : Response :=
  if requireTrustedHost setup.security setup.config request = .next then unauthorized else hostNotAllowed

/-- The reply to a request the layers or the probes answer says nothing of the state, and
nothing is done for it. -/
theorem Exchange.Accounted.barred (accounted : exchange.Accounted setup app)
    (barred : exchange.route.secured = true →
      throughLayers setup.security setup.config exchange.route exchange.request ≠ .next) :
    exchange.opened = [] ∧ ∃ reply, exchange.handling = .replied reply ∧
      (exchange.route.secured = false → reply = .ok) ∧
      (exchange.route.secured = true → reply = (refusal setup exchange.request).reply) := by
  obtain ⟨route, request, handling, opened⟩ := exchange
  have open_ : throughLayers setup.security setup.config route request = .next →
      route.secured = false :=
    fun passed => Bool.eq_false_of_not_eq_true fun secured => barred secured passed
  cases handling with
  | ensuring =>
      obtain ⟨passed, named, _⟩ := accounted
      cases named
      cases open_ passed
  | joining =>
      obtain ⟨passed, named, _⟩ := accounted
      cases named
      cases open_ passed
  | abandoned =>
      obtain ⟨passed, named | ⟨name, named⟩⟩ := accounted
      · cases named
        cases open_ passed
      · cases named
        cases open_ passed
  | replied reply =>
      have answer : Answer setup app route request opened reply := accounted
      cases answer with
      | refused refused own =>
          refine ⟨own, _, rfl, ?_⟩
          obtain ⟨secured, ⟨host, _⟩ | ⟨host, _, rfl⟩⟩ := throughLayers_respond refused
          · refine ⟨fun unsecured => by simp [secured] at unsecured, fun _ => ?_⟩
            rw [refusal, if_neg (by simp [host]), requireTrustedHost_respond host]
          · refine ⟨fun unsecured => by simp [secured] at unsecured, fun _ => ?_⟩
            rw [refusal, if_pos host]
      | inert passed handled own =>
          have unsecured := open_ passed
          refine ⟨own, _, rfl, fun _ => ?_, fun secured => by simp [unsecured] at secured⟩
          cases route with
          | status | healthz =>
              cases handled
              rfl
          | _ => cases unsecured
      | plugin passed named =>
          cases named
          cases open_ passed
      | all passed named =>
          cases named
          cases open_ passed

/-- The client of the exchange does not know the secret, where it would need it. -/
def Exchange.Unknowing (setup : ServerSetup) (exchange : Exchange) : Prop :=
  exchange.route.secured = true → ∀ secret, setup.config.server.password = some secret →
    ¬ exchange.request.Presents setup.security secret

/-- A server that listens on the network answers a `GET` past the CORS layer without the
secret with nothing but its refusals, whatever other clients do, and does nothing else for
it; while no request has come with the secret, nothing is done at all. -/
theorem closed_without_secret (documented : setup.security.Documented)
    (started : checkSecurity setup.config.server.bind setup.config.server.password = .ok ())
    (exposed : setup.config.server.bind.isLoopback = false)
    (reachable : (serverSystem setup).Reachable app) :
    (∀ exchange ∈ app.exchanges, exchange.Unknowing setup →
      exchange.opened = [] ∧ ∃ reply, exchange.handling = .replied reply ∧
        (exchange.route.secured = false → reply = .ok) ∧
        (exchange.route.secured = true → reply = (refusal setup exchange.request).reply)) ∧
      ((∀ exchange ∈ app.exchanges, exchange.Unknowing setup) →
        (∀ id, (app.engine id).Untouched) ∧
          app.alerts = { hostname := setup.hostname } ∧ app.committed = []) := by
  obtain ⟨secret, configured⟩ := checkSecurity_ok.mp started exposed
  have barred : ∀ exchange : Exchange, exchange.Unknowing setup → exchange.route.secured = true →
      throughLayers setup.security setup.config exchange.route exchange.request ≠ .next :=
    fun exchange unknowing secured =>
      throughLayers_barred documented configured secured (unknowing secured secret configured)
  refine ⟨fun exchange member unknowing => ?_, fun unknown => ?_⟩
  · exact (accounted_of_reachable reachable exchange member).barred (barred exchange unknowing)
  · have unasked : ∀ id, ¬ app.Asked setup id := by
      intro id asked
      obtain ⟨exchange, member, passed, _, named⟩ := asked
      refine barred exchange (unknown exchange member) ?_ passed
      rcases named with named | named <;> rw [named] <;> rfl
    exact ⟨fun id => (untouched_of_reachable reachable id).resolve_right (unasked id),
      (journal_of_reachable reachable).resolve_right (not_exists.mpr unasked)⟩

end Closed

def networkServer : ServerSetup where
  crates := .ofDocument "" {}
  security := .standard
  config := { server := { bind := .v4 0 0 0 0, password := some "secret" } }
  hostname := "h"

/-- Requests without a password and with a guessed one. -/
def guesses : List ServerAction :=
  [.receive .all { headers := [] }, .receive .status { headers := [] },
    .receive (.plugin "mem")
      { headers := [(.authorization, (basicHeader encodeStandard "ann" "guess").toUTF8)] }]

/-- Those are refused beside a client that is let through. -/
theorem guesses_closed_without_secret :
    (∃ app, (@serverSystem .integers networkServer).run (@serverSystem .integers networkServer).init
        guesses = some app ∧ app.exchanges.length = 3 ∧ ∀ id, (app.engine id).Untouched) ∧
      ∃ app exchange, (@serverSystem .integers networkServer).run
          (@serverSystem .integers networkServer).init (guesses ++ [.receive .alert
            { headers := [(.authorization, (basicHeader encodeStandard "ann" "secret").toUTF8)] }]) =
          some app ∧ app.exchanges.map Exchange.status = [some 401, some 200, some 401, some 200] ∧
        exchange ∈ app.exchanges ∧ exchange.route = .all ∧
        exchange.handling = .replied unauthorized.reply ∧ exchange.opened = [] := by
  have documented : networkServer.security.Documented := SecurityCrates.standard_documented
  have unknowing : ∀ {exchange : Exchange},
      requireAuth networkServer.security networkServer.config exchange.request ≠ .next →
      exchange.Unknowing networkServer :=
    fun barred _ secret configured presented =>
      barred ((requireAuth_next_iff documented configured).mpr presented)
  have refused : ((@serverSystem .integers networkServer).run
      (@serverSystem .integers networkServer).init guesses).map (fun app =>
        (app.exchanges.length, app.exchanges.all fun exchange =>
          requireAuth networkServer.security networkServer.config exchange.request != .next)) =
      some (3, true) := by
    decide +kernel
  have beside : ((@serverSystem .integers networkServer).run
      (@serverSystem .integers networkServer).init (guesses ++ [.receive .alert
        { headers := [(.authorization, (basicHeader encodeStandard "ann" "secret").toUTF8)] }])).map
        (fun app => (app.exchanges.map Exchange.status, app.exchanges.map fun exchange =>
          (exchange.route, requireTrustedHost networkServer.security networkServer.config exchange.request,
            requireAuth networkServer.security networkServer.config exchange.request))) =
      some ([some 401, some 200, some 401, some 200],
        [(.all, .next, .respond unauthorized), (.status, .next, .respond unauthorized),
          (.plugin "mem", .next, .respond unauthorized), (.alert, .next, .next)]) := by
    decide +kernel
  constructor
  · obtain ⟨app, ran, shown⟩ := Option.map_eq_some_iff.mp refused
    simp only [Prod.mk.injEq, List.all_eq_true, bne_iff_ne] at shown
    obtain ⟨three, barred⟩ := shown
    exact ⟨app, ran, three, ((@closed_without_secret networkServer app .integers documented rfl
      (by decide) ⟨_, ran⟩).2 fun exchange member => unknowing (barred exchange member)).1⟩
  · obtain ⟨app, ran, shown⟩ := Option.map_eq_some_iff.mp beside
    obtain ⟨statuses, layers⟩ := Prod.mk.inj shown
    obtain ⟨exchange, rest, all, first, _⟩ := List.map_eq_cons_iff.mp layers
    simp only [Prod.mk.injEq] at first
    obtain ⟨named, host, auth⟩ := first
    have member : exchange ∈ app.exchanges := by simp [all]
    obtain ⟨opened, reply, replied, _, secured⟩ :=
      (@closed_without_secret networkServer app .integers documented rfl (by decide) ⟨_, ran⟩).1
        exchange member (unknowing (by simp [auth]))
    have refused : reply = unauthorized.reply := by
      rw [secured (by rw [named]; rfl), refusal, if_pos host]
    exact ⟨app, exchange, ran, statuses, member, named, refused ▸ replied, opened⟩

end GlancesRs
