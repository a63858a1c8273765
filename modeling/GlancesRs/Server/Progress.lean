import GlancesRs.Engine.Progress
import GlancesRs.Server.Carried
import GlancesRs.Server.Inert

namespace GlancesRs

open Data

/-! No request gets stuck: the registry lock is always given back, the loop a request
waits for is always there, and its first cycle always comes to its end. -/

variable {setup : ServerSetup} {app after : AppState} {id : PluginId} {l r : ℕ}
variable {collection : Collection}

/-- What a plugin collects is an object. -/
def ServerAction.CollectsObjects (action : ServerAction) : Prop :=
  ∀ id l value, action = .work id (.collect l value) → ∃ members, value = .object members

def AppState.ObservesObjects (app : AppState) : Prop :=
  ∀ (id : PluginId) (l : ℕ) (loop : Loop) (value : Json), (app.loops id)[l]? = some loop →
    loop.phase = .observing value → ∃ members, value = .object members

section Invariants

variable [NumberText]

theorem ServerMove.observesObjects {action : ServerAction} (move : ServerMove setup app action after)
    (collects : action.CollectsObjects) (objects : app.ObservesObjects) : after.ObservesObjects := by
  intro id l loop value found at_
  rcases move.loops id with same | ⟨own, next, rfl, stepped, same, _⟩
  · rw [same] at found
    exact objects id l loop value found at_
  · rw [same] at found
    rcases Engine.step_phase stepped found with former | enters
    · exact objects id l loop value former at_
    · rw [at_] at enters
      exact collects id l value (congrArg _ enters)

end Invariants

section Alone

def ServerAction.collectsFor (id : PluginId) : ServerAction → Bool
  | .work other action => other = id && action.isCollect
  | _ => false

/-- A step of the tasks, or time; what it collects or observes is as `collection` has it. -/
def ServerAction.Given (id : PluginId) (collection : Collection) : ServerAction → Prop
  | .tick _ => True
  | .work other (.collect _ value) => other = id ∧ value = .object collection.members
  | .work other (.observe _ nowSys) => other = id ∧ nowSys = collection.nowSys
  | .work _ _ => True
  | _ => False

/-- The tasks alone, and time: nothing arrives or leaves, only the plugin `id` collects, and
that takes its time. -/
structure TasksAlone (id : PluginId) (collection : Collection) (labels : List ServerAction) : Prop where
  given : ∀ label ∈ labels, label.Given id collection
  takes : ∀ l value, .work id (.collect l value) ∈ labels →
    [.tick collection.elapsed, .work id (.collect l value)] <:+: labels

variable {labels first last : List ServerAction}

theorem TasksAlone.of_given (given : ∀ label ∈ labels, label.Given id collection)
    (idle : ∀ l value, .work id (.collect l value) ∉ labels) : TasksAlone id collection labels :=
  ⟨given, fun l value member => absurd member (idle l value)⟩

theorem TasksAlone.append (started : TasksAlone id collection first)
    (ended : TasksAlone id collection last) : TasksAlone id collection (first ++ last) where
  given := List.forall_mem_append.mpr ⟨started.given, ended.given⟩
  takes l value member := by
    rcases List.mem_append.mp member with early | late
    · exact (started.takes l value early).trans (List.prefix_append first last).isInfix
    · exact (ended.takes l value late).trans (List.suffix_append first last).isInfix

/-- A step of one plugin's engine as one of the server. -/
def Action.onServer (id : PluginId) : Action → ServerAction
  | .tick elapsed => .tick elapsed
  | action => .work id action

theorem LoopPhase.tasksAlone_toReady {phase : LoopPhase} :
    TasksAlone id collection ((phase.toReady l collection).map (Action.onServer id)) := by
  cases phase with
  | collecting =>
      refine ⟨by simp [toReady, Action.onServer, ServerAction.Given], fun k value member => ?_⟩
      simp only [toReady, Action.onServer, List.map_cons, List.map_nil, List.mem_cons, reduceCtorEq,
        ServerAction.work.injEq, Action.collect.injEq, List.not_mem_nil, true_and, and_false, or_false,
        false_or] at member
      obtain ⟨rfl, rfl⟩ := member
      exact ⟨[], _, rfl⟩
  | _ => refine .of_given ?_ ?_ <;> simp [toReady, Action.onServer, ServerAction.Given]

/-- At most one collection, and no more time than it takes. -/
theorem LoopPhase.countP_toReady {phase : LoopPhase} :
    ((phase.toReady l collection).map (Action.onServer id)).countP (ServerAction.collectsFor id) ≤ 1 ∧
      phase.awaits collection =
        ((phase.toReady l collection).map (Action.onServer id)).countP (ServerAction.collectsFor id) *
          collection.elapsed := by
  cases phase <;>
    simp [toReady, awaits, Action.onServer, ServerAction.collectsFor, Action.isCollect]

/-- The request's own steps collect nothing. -/
theorem TasksAlone.own {own : List Action} (reads : own.Sublist [.poll r, .read r]) :
    TasksAlone id collection (own.map (Action.onServer id)) ∧
      (own.map (Action.onServer id)).countP (ServerAction.collectsFor id) = 0 := by
  have listed : ∀ action ∈ own, action = .poll r ∨ action = .read r := by
    intro action member
    simpa using reads.subset member
  refine ⟨.of_given (fun label member => ?_) (fun l value member => ?_), ?_⟩
  · obtain ⟨action, known, rfl⟩ := List.mem_map.mp member
    rcases listed action known with rfl | rfl <;> trivial
  · obtain ⟨action, known, same⟩ := List.mem_map.mp member
    rcases listed action known with rfl | rfl <;> cases same
  · rw [List.countP_eq_zero]
    intro label member
    obtain ⟨action, known, rfl⟩ := List.mem_map.mp member
    rcases listed action known with rfl | rfl <;> simp [Action.onServer, ServerAction.collectsFor, Action.isCollect]

end Alone

section Lifting

theorem AppState.setEngine_engine : app.setEngine id (app.engine id) = app := by
  simp only [setEngine, engine, Function.update_eq_self]

theorem AppState.setEngine_clock {clock : Clock} :
    app.setEngine id { app.engine id with clock } = { app with clock } := by
  simp only [setEngine, engine, Function.update_eq_self]

theorem AppState.setEngine_setEngine {first second : Engine} :
    (app.setEngine id first).setEngine id second = app.setEngine id second := by
  simp only [setEngine, Function.update_idem]

variable [NumberText]

theorem AppState.step_onServer {action : Action} {next : Engine} (unlocked : action.local = true)
    (taken : (app.engine id).step (setup.plugin id) action = some next) :
    app.step setup (action.onServer id) = some (app.setEngine id next) := by
  obtain ⟨served, kept, own, unlooked, free⟩ := Action.local_ne unlocked
  by_cases timed : ∃ elapsed, action = .tick elapsed
  · obtain ⟨elapsed, rfl⟩ := timed
    obtain ⟨clock, later, rfl⟩ := Option.map_eq_some_iff.mp taken
    have later : app.clock.advance? elapsed = some clock := later
    rw [Action.onServer, AppState.step, later, setEngine_clock]
    rfl
  · have works : action.onServer id = .work id action := by
      cases action with
      | tick elapsed => exact absurd ⟨elapsed, rfl⟩ timed
      | _ => rfl
    rw [works]
    exact work_of_step taken (fun elapsed same => timed ⟨elapsed, same⟩) served kept own (by
      rintro (⟨r, rfl⟩ | ⟨l, rfl⟩)
      · exact absurd rfl (unlooked r)
      · exact absurd rfl (free l))

/-- What a plugin's tasks do without the lock, the server can do. -/
theorem AppState.run_onServer {next : Engine} {actions : List Action}
    (locals : ∀ action ∈ actions, action.local = true)
    (ran : (engineSystem (setup.plugin id)).run (app.engine id) actions = some next) :
    (serverSystem setup).run app (actions.map (Action.onServer id)) = some (app.setEngine id next) := by
  induction actions generalizing app with
  | nil =>
      cases ran
      rw [setEngine_engine]
      rfl
  | cons action rest ih =>
      obtain ⟨unlocked, locals⟩ := List.forall_mem_cons.mp locals
      obtain ⟨middle, taken, continued⟩ := Option.bind_eq_some_iff.mp ran
      have first : (serverSystem setup).step app (action.onServer id) = some (app.setEngine id middle) :=
        step_onServer unlocked taken
      have later := @ih (app.setEngine id middle) locals (by rw [engine_setEngine_self]; exact continued)
      rw [List.map_cons, TransitionSystem.run_cons, first, Option.bind_some, later, setEngine_setEngine]

end Lifting

section Served

variable [NumberText] {request : PluginRequest}

theorem registered_of_loop (reachable : (serverSystem setup).Reachable app) {loop : Loop}
    (found : (app.loops id)[l]? = some loop) : isRegistered setup.config id = true := by
  by_contra disabled
  have off : (setup.plugin id).config.pluginEnabled (setup.plugin id).id.asStr = false :=
    Bool.eq_false_of_not_eq_true disabled
  have empty : app.loops id = [] := (dormant_of_reachable off (engine_reachable reachable id)).loops
  simp [empty] at found

theorem registered_of_request (reachable : (serverSystem setup).Reachable app)
    (found : (app.requests id)[r]? = some request) (unfinished : ∀ exit, request.phase ≠ .done exit) :
    isRegistered setup.config id = true := by
  by_contra disabled
  have off : (setup.plugin id).config.pluginEnabled (setup.plugin id).id.asStr = false :=
    Bool.eq_false_of_not_eq_true disabled
  exact unfinished _ ((dormant_of_reachable off (engine_reachable reachable id)).requests request
    (List.mem_of_getElem? found))

/-- Under the lock there is a next step, which gives the lock back. -/
theorem Engine.recheck_releases {single : Setup} {engine : Engine} {idle : Duration}
    (timed : single.config.idleTimeoutFor single.id.asStr = some idle) (rechecks : engine.Rechecks l) :
    ∃ next, engine.step single (.recheck l) = some next ∧ next.requests = engine.requests ∧
      next.clock = engine.clock ∧ ¬ next.Rechecks l := by
  obtain ⟨loop, found, at_⟩ := rechecks
  have elsewhere : ∀ {moved : Loop} {base : Engine}, base.loops[l]? = some loop →
      moved.phase ≠ .rechecking → ¬ (base.setLoop l moved).Rechecks l := by
    intro moved base known apart again
    obtain ⟨last, seen, at_⟩ := again
    rw [loops_setLoop known, if_pos rfl] at seen
    cases seen
    exact apart at_
  by_cases unrequested : idle ≤ engine.idleFor
  · have taken : engine.step single (.recheck l) =
        some (({ engine with collectors := none } : Engine).setLoop l { loop with phase := .stopped }) := by
      simp [step, recheck, found, at_, timed, unrequested]
    have emptied : ({ engine with collectors := none } : Engine).loops[l]? = some loop := found
    exact ⟨_, taken, rfl, rfl, elsewhere emptied (by simp)⟩
  · have taken : engine.step single (.recheck l) =
        some (engine.setLoop l { loop with phase := .collecting }) := by
      simp [step, recheck, found, at_, timed, unrequested]
    exact ⟨_, taken, rfl, rfl, elsewhere found (by simp)⟩

/-- The loop inside the lock, if there is one, leaves it in one step. -/
theorem AppState.release
    (runs : ∀ id, isRegistered setup.config id = true → setup.config.Runs setup.crates id)
    (reachable : (serverSystem setup).Reachable app) (objects : app.ObservesObjects) :
    ∃ labels after, (∀ label ∈ labels, ∃ id l, label = .work id (.recheck l)) ∧
      (serverSystem setup).run app labels = some after ∧ after.lockHeld = false ∧
      after.clock = app.clock ∧ (∀ id, after.requests id = app.requests id) ∧
      after.exchanges = app.exchanges ∧
      (∀ id, (∀ l, ¬ app.Holds (id, l)) → after.loops id = app.loops id) ∧ after.ObservesObjects := by
  cases held : app.lockHeld with
  | false => exact ⟨[], app, by simp, rfl, held, rfl, fun _ => rfl, rfl, fun _ _ => rfl, objects⟩
  | true =>
      obtain ⟨⟨holder, l⟩, rechecks⟩ := lockHeld_iff.mp held
      have inside : ∃ loop, (app.loops holder)[l]? = some loop := rechecks.imp fun _ known => known.1
      obtain ⟨loop, found⟩ := inside
      obtain ⟨_, _, idle, _, _, timed, _⟩ := (runs holder (registered_of_loop reachable found)).refresh
      obtain ⟨next, taken, same, now, left⟩ :=
        @Engine.recheck_releases l _ (setup.plugin holder) _ idle timed rechecks
      have worked : app.step setup (.work holder (.recheck l)) = some (app.setEngine holder next) :=
        work_of_step taken (by simp) (by simp) (by simp) (by simp) (by simp)
      have move := step_moves worked
      have stepped : (serverSystem setup).step app (.work holder (.recheck l)) =
          some (app.setEngine holder next) := worked
      refine ⟨[.work holder (.recheck l)], app.setEngine holder next, by simp,
        TransitionSystem.run_of_step stepped, ?_, now, fun id => ?_, rfl, fun id apart => ?_,
        move.observesObjects (by simp [ServerAction.CollectsObjects]) objects⟩
      · refine Bool.eq_false_of_not_eq_true fun again => ?_
        obtain ⟨other, holds⟩ := lockHeld_iff.mp again
        rcases move.holds holds with former | ⟨free, _⟩
        · have alone := holder_unique reachable other (holder, l) former rechecks
          subst alone
          rw [Holds, engine_setEngine_self] at holds
          exact left holds
        · rw [held] at free
          cases free
      · change Function.update app.requests holder next.requests id = app.requests id
        rw [same]
        exact congrFun (Function.update_eq_self holder app.requests) id
      · refine AppState.loops_setEngine_of_ne fun own => ?_
        subst own
        exact apart l rechecks

/-- The lookup under a free lock: the request waits on the loop it finds or spawns. -/
theorem AppState.look_up (runs : setup.config.Runs setup.crates id) (free : app.lockHeld = false)
    (objects : app.ObservesObjects)
    (found : (app.requests id)[r]? = some request) (at_ : request.phase = .locking) :
    ∃ after waiting ready since, (serverSystem setup).step app (.work id (.lookup r)) = some after ∧
      (after.requests id)[r]? = some waiting ∧ waiting.phase = .waiting ready since ∧
      after.clock = app.clock ∧ after.exchanges = app.exchanges ∧ after.ObservesObjects := by
  have unheld : (app.engine id).lockHeld = false := by
    refine Bool.eq_false_of_not_eq_true fun held => ?_
    obtain ⟨l, rechecks⟩ := Engine.lockHeld_iff.mp held
    rw [lockHeld_iff.mpr ⟨(id, l), rechecks⟩] at free
    cases free
  have known : (app.engine id).requests[r]? = some request := found
  obtain ⟨guard, guarded⟩ := runs.guard
  have guarded : (setup.plugin id).config.guardTimeout = some guard := guarded
  have looked : ∃ next waiting ready since, (app.engine id).lookup (setup.plugin id) r = some next ∧
      next.clock = app.clock ∧ next.requests[r]? = some waiting ∧
      waiting.phase = .waiting ready since := by
    cases active : (app.engine id).collectors with
    | some collector =>
        refine ⟨(app.engine id).join r request collector.ready, _, _, _, ?_, rfl,
          Engine.requests_setRequest_self known, rfl⟩
        simp [Engine.lookup, known, at_, unheld, guarded, active]
    | none =>
        obtain ⟨refresh, built⟩ := runs.builds
        have built : spawnPlugin (setup.plugin id).crates (setup.plugin id).config (setup.plugin id).id =
            some refresh := built
        have spawned : ((app.engine id).spawn refresh).requests[r]? = some request := known
        refine ⟨((app.engine id).spawn refresh).join r request ⟨(app.engine id).loops.length⟩, _, _, _, ?_,
          rfl, Engine.requests_setRequest_self spawned, rfl⟩
        simp [Engine.lookup, known, at_, unheld, guarded, active, built]
  obtain ⟨next, waiting, ready, since, taken, now, seen, waits⟩ := looked
  have taken : (app.engine id).step (setup.plugin id) (.lookup r) = some next := taken
  have worked : app.step setup (.work id (.lookup r)) = some (app.setEngine id next) :=
    work_of_step taken (by simp) (by simp) (by simp) (by simp) fun _ => free
  refine ⟨app.setEngine id next, waiting, ready, since, worked, ?_, waits, now, rfl,
    (step_moves worked).observesObjects (by simp [ServerAction.CollectsObjects]) objects⟩
  change (Function.update app.requests id next.requests id)[r]? = some waiting
  rw [Function.update_self]
  exact seen

theorem AppState.sound (reachable : (serverSystem setup).Reachable app) (objects : app.ObservesObjects)
    (id : PluginId) : (app.engine id).Sound (setup.plugin id) where
  fresh := fresh_of_reachable (engine_reachable reachable id)
  coherent := coherent_of_reachable (engine_reachable reachable id)
  objects l loop value := objects id l loop value
  channels := channelsKnown_of_reachable (engine_reachable reachable id)

/-- The tasks alone bring request `r` to its snapshot, and no time passes but that of the
collection they may need. -/
structure AppState.ServedAlone (setup : ServerSetup) (id : PluginId) (r : ℕ) (collection : Collection)
    (app : AppState) (more : List ServerAction) (after : AppState) (snapshot : Snapshot) : Prop where
  tasks : TasksAlone id collection more
  ran : (serverSystem setup).run app more = some after
  once : more.countP (ServerAction.collectsFor id) ≤ 1
  clock : after.clock.nanos =
    app.clock.nanos + more.countP (ServerAction.collectsFor id) * collection.elapsed
  exchanges : after.exchanges = app.exchanges
  done : after.exit id r = some (.found snapshot)

variable {more : List ServerAction} {snapshot : Snapshot}

/-- Steps that take no time and collect nothing may come first. -/
theorem AppState.ServedAlone.after_steps {middle : AppState} {first : List ServerAction}
    (served : middle.ServedAlone setup id r collection more after snapshot)
    (ran : (serverSystem setup).run app first = some middle) (tasks : TasksAlone id collection first)
    (idle : first.countP (ServerAction.collectsFor id) = 0) (now : middle.clock = app.clock)
    (opened : middle.exchanges = app.exchanges) :
    app.ServedAlone setup id r collection (first ++ more) after snapshot where
  tasks := tasks.append served.tasks
  ran := TransitionSystem.run_trans ran served.ran
  once := by
    rw [List.countP_append, idle, Nat.zero_add]
    exact served.once
  clock := by
    rw [List.countP_append, idle, Nat.zero_add, served.clock, now]
  exchanges := served.exchanges.trans opened
  done := served.done

/-- A request that its engine can serve is served by a run of the server. -/
theorem AppState.served_of_serves (serves : (app.engine id).Serves (setup.plugin id) collection r) :
    ∃ more after snapshot, app.ServedAlone setup id r collection more after snapshot := by
  obtain ⟨l, phase, own, next, request, snapshot, reads, ran, clock, found, done⟩ := serves
  obtain ⟨tasks, idle⟩ := @TasksAlone.own id r collection own reads
  obtain ⟨once, awaits⟩ := @LoopPhase.countP_toReady id l collection phase
  have locals : ∀ action ∈ phase.toReady l collection ++ own, action.local = true := by
    refine List.forall_mem_append.mpr ⟨LoopPhase.toReady_local, fun action member => ?_⟩
    have listed : action = .poll r ∨ action = .read r := by simpa using reads.subset member
    rcases listed with rfl | rfl <;> rfl
  have counted : (((phase.toReady l collection ++ own).map (Action.onServer id)).countP
      (ServerAction.collectsFor id)) = ((phase.toReady l collection).map (Action.onServer id)).countP
        (ServerAction.collectsFor id) := by
    rw [List.map_append, List.countP_append, idle, Nat.add_zero]
  refine ⟨(phase.toReady l collection ++ own).map (Action.onServer id), app.setEngine id next, snapshot,
    ?_, run_onServer locals ran, ?_, ?_, rfl, ?_⟩
  · rw [List.map_append]
    exact LoopPhase.tasksAlone_toReady.append tasks
  · rw [counted]
    exact once
  · rw [counted, ← awaits]
    exact clock
  · rw [exit_eq_some, engine_setEngine_self]
    exact ⟨request, found, done⟩

/-- While the guard time-out of a request is ahead, no poll of it ends in it. -/
theorem AppState.unelapsed {guard : Duration} {deadline : ℕ} {labels : List ServerAction} {ended : AppState}
    (reachable : (serverSystem setup).Reachable app)
    (guarded : (app.engine id).GuardedUntil guard deadline r)
    (timed : setup.config.guardTimeout = some guard)
    (ran : (serverSystem setup).run app labels = some after) (early : after.clock.nanos ≤ deadline)
    (polled : (serverSystem setup).step after (.work id (.poll r)) = some ended) (waited : ℕ) :
    ended.exit id r ≠ some (.guardElapsed waited) := by
  obtain ⟨shown, seen⟩ := (server_projects setup id).run reachable ran
  have later : (after.engine id).GuardedUntil guard deadline r :=
    @TransitionSystem.run_invariant _ _ (engineSystem (setup.plugin id)) (Engine.GuardedUntil guard deadline r)
      _ _ _ (fun _ _ _ before taken => (Engine.step_moves taken).guardedUntil before) guarded seen
  have polled : after.work setup id (.poll r) = some ended := polled
  obtain ⟨⟨next, taken, rfl⟩, _⟩ := work_step polled
  have taken : (after.engine id).poll (setup.plugin id) r = some next := taken
  have timed : (setup.plugin id).config.guardTimeout = some guard := timed
  have early : (after.engine id).now ≤ deadline := early
  rw [Ne, exit_eq_some, engine_setEngine_self]
  rintro ⟨request, found, done⟩
  exact later.poll timed early taken found waited done

/-- From every state a run over collected objects reaches, each request still inside
`ensure_plugin` can be served by the tasks alone, whatever the collection it may wait for
returns and however long it takes, if the guard time-out comes later: on the way no poll ends
in the time-out, and the handler that waits for the request then answers `200`. -/
theorem request_servable
    (runs : ∀ id, isRegistered setup.config id = true → setup.config.Runs setup.crates id)
    {labels : List ServerAction} (collects : ∀ label ∈ labels, label.CollectsObjects)
    (ran : (serverSystem setup).run (serverSystem setup).init labels = some app)
    (found : (app.requests id)[r]? = some request) (unfinished : ∀ exit, request.phase ≠ .done exit)
    (kept : request.phase ≠ .dropped)
    (inRange : (app.clock.nanos + collection.elapsed) / 10 ^ 6 < 2 ^ 63)
    {guard : Duration} (timed : setup.config.guardTimeout = some guard)
    (guarded : request.GuardedUntil guard app.clock.nanos (app.clock.nanos + collection.elapsed)) :
    ∃ more after snapshot, app.ServedAlone setup id r collection more after snapshot ∧
      (∀ n later ended waited, (serverSystem setup).run app (more.take n) = some later →
        (serverSystem setup).step later (.work id (.poll r)) = some ended →
        ended.exit id r ≠ some (.guardElapsed waited)) ∧
      ∀ x exchange name, app.exchanges[x]? = some exchange →
        exchange.handling = .ensuring name id r →
        (serverSystem setup).step after (.respond x) =
          some (after.setHandling x exchange (.replied (.json 200 snapshot.body))) := by
  have reachable : (serverSystem setup).Reachable app := ⟨labels, ran⟩
  have objects : app.ObservesObjects := by
    refine TransitionSystem.run_invariant_of_labels
      (fun label member before after objects taken =>
        (AppState.step_moves taken).observesObjects (collects label member) objects) ?_ ran
    intro id l loop value known
    simp [serverSystem] at known
  have registered := registered_of_request reachable found unfinished
  have fits : setup.config.Runs setup.crates id := runs id registered
  have served : ∃ more after snapshot, app.ServedAlone setup id r collection more after snapshot := by
    cases at_ : request.phase with
    | dropped => exact absurd at_ kept
    | done exit => exact absurd at_ (unfinished exit)
    | reading =>
        have stored := (fresh_of_reachable (engine_reachable reachable id)).served request
          (List.mem_of_getElem? found)
        rw [PluginRequest.Served, at_] at stored
        obtain ⟨_, _, snapshot, stored, _⟩ := stored
        obtain ⟨after, last, snapshot, ended, clock, found, done⟩ :=
          @Engine.serves_of_reading (setup.plugin id) (app.engine id) r _ request found at_
            (by simp [stored])
        exact AppState.served_of_serves ⟨0, .resting, [.read r], after, last, snapshot, by simp, ended,
          congrArg Clock.nanos clock, found, done⟩
    | waiting ready since =>
        exact AppState.served_of_serves
          ((AppState.sound reachable objects id).serves_of_waiting fits inRange found at_)
    | locking =>
        obtain ⟨first, free, releases, released, unheld, now, requests, opened, _, objects⟩ :=
          AppState.release runs reachable objects
        have listed : (free.requests id)[r]? = some request := by rw [requests, found]
        obtain ⟨middle, waiting, ready, since, looked, joined, waits, later, exchanges, objects⟩ :=
          AppState.look_up fits unheld objects listed at_
        have reached := (reachable.run released).step looked
        have early : middle.clock = app.clock := later.trans now
        obtain ⟨more, after, snapshot, served⟩ := AppState.served_of_serves
          ((AppState.sound reached objects id).serves_of_waiting fits
            (by rw [AppState.engine, early]; exact inRange) joined waits)
        have plain : ∀ label ∈ first ++ [.work id (.lookup r)],
            (∃ id l, label = .work id (.recheck l)) ∨ label = .work id (.lookup r) :=
          List.forall_mem_append.mpr ⟨fun label member => .inl (releases label member), by simp⟩
        have looks := TransitionSystem.run_of_step looked
        refine ⟨_, after, snapshot, served.after_steps (TransitionSystem.run_trans released looks)
          (.of_given (fun label member => ?_) fun l value member => ?_) ?_ early
          (exchanges.trans opened)⟩
        · rcases plain label member with ⟨_, _, rfl⟩ | rfl <;> trivial
        · rcases plain _ member with ⟨_, _, same⟩ | same <;> cases same
        · rw [List.countP_eq_zero]
          intro label member
          rcases plain label member with ⟨_, _, rfl⟩ | rfl <;>
            simp [ServerAction.collectsFor, Action.isCollect]
  obtain ⟨more, after, snapshot, served⟩ := served
  refine ⟨more, after, snapshot, served, fun n later ended waited passed polled => ?_, ?_⟩
  · -- Up to the end of this run the clock has not reached the guard time-out.
    obtain ⟨middle, reached, continued⟩ : ∃ middle,
        (serverSystem setup).run app (more.take n) = some middle ∧
          (serverSystem setup).run middle (more.drop n) = some after := by
      have whole := served.ran
      rw [← List.take_append_drop n more, TransitionSystem.run_append] at whole
      exact Option.bind_eq_some_iff.mp whole
    rw [passed] at reached
    cases reached
    have grown : later.clock.nanos ≤ after.clock.nanos :=
      @TransitionSystem.run_invariant _ _ _ (fun state => later.clock.nanos ≤ state.clock.nanos) _ _ _
        (fun _ _ _ passed taken => passed.trans (AppState.step_moves taken).shared.1) le_rfl continued
    have least := Nat.mul_le_mul_right collection.elapsed served.once
    rw [Nat.one_mul] at least
    refine AppState.unelapsed reachable ⟨request, found, guarded⟩ timed passed ?_ polled waited
    rw [served.clock] at grown
    omega
  · intro x exchange name listed waits
    change after.respond x = _
    rw [AppState.respond, served.exchanges, listed, Option.bind_eq_bind, Option.bind_some, waits]
    simp [served.done, Exit.result, pluginStats]

end Served

theorem defaultServer_runs (id : PluginId) : defaultServer.config.Runs defaultServer.crates id := by
  have validated : Config.Validated defaultServer.crates defaultServer.config :=
    Config.validate_ok (Config.validate_default _)
  have compiles : DefaultHideCompiles defaultServer.crates :=
    ⟨by simp [defaultServer, Crates.ofDocument], by simp [defaultServer, Crates.ofDocument],
      by simp [defaultServer, Crates.ofDocument]⟩
  refine validated.runs_of_timesFit compiles ⟨⟨2, ?_, by norm_num, ?_⟩, ⟨5, ?_, by norm_num⟩,
    ⟨5, ?_, by norm_num⟩⟩
  · cases id <;> decide +kernel
  · decide +kernel
  · decide +kernel
  · cases id <;> decide +kernel

def coldRequest : List ServerAction := [.receive (.plugin "cpu") { headers := [] }]

/-- The first collection of `cpu` waits for its second sample. -/
def warmUp : Collection where
  members := [("total", .number (.posInt 7))]
  elapsed := 250 * 10 ^ 6
  nowSys := 0

theorem coldRequest_request_servable : ∃ app more after snapshot,
    (@serverSystem .integers defaultServer).run (@serverSystem .integers defaultServer).init
      coldRequest = some app ∧
    @AppState.ServedAlone .integers defaultServer .cpu 0 warmUp app more after snapshot := by
  have received : ((@serverSystem .integers defaultServer).run
      (@serverSystem .integers defaultServer).init coldRequest).map (fun app =>
        ((app.requests .cpu).map PluginRequest.phase, app.clock.nanos)) = some ([.locking], 0) := by
    rfl
  obtain ⟨app, ran, shown⟩ := Option.map_eq_some_iff.mp received
  obtain ⟨requests, now⟩ := Prod.mk.inj shown
  obtain ⟨request, rest, all, at_, _⟩ := List.map_eq_cons_iff.mp requests
  have found : (app.requests .cpu)[0]? = some request := by simp [all]
  have collects : ∀ label ∈ coldRequest, label.CollectsObjects := by
    simp [coldRequest, ServerAction.CollectsObjects]
  have timed : defaultServer.config.guardTimeout = some ⟨5 * 10 ^ 9, by decide⟩ := by decide +kernel
  obtain ⟨more, after, snapshot, served, _⟩ :=
    @request_servable defaultServer app .cpu 0 warmUp .integers request (fun id _ => defaultServer_runs id)
      coldRequest collects ran found (by simp [at_]) (by simp [at_]) (by simp [now, warmUp]) _ timed
      (by simp [PluginRequest.GuardedUntil, at_, now, warmUp])
  exact ⟨app, more, after, snapshot, ran, served⟩

end GlancesRs
