import GlancesRs.Engine.Rest
import GlancesRs.Server.Progress

namespace GlancesRs

open Data

/-! A plugin that nobody asks for costs one more collection at most and can always come
to rest, whatever the requests for the other plugins do meanwhile. -/

variable {setup : ServerSetup} {app after : AppState} {id : PluginId} {l : ℕ} {loop : Loop}
variable {collection : Collection}

/-- The steps of the loops of one plugin. -/
def ServerAction.drives (id : PluginId) : ServerAction → Bool
  | .work other action => other = id && action.isLoop
  | _ => false

def AppState.Unasked (setup : ServerSetup) (id : PluginId) (app : AppState) : Prop :=
  (app.engine id).Unasked (setup.plugin id)

/-- How far the loops of a plugin are from their end. -/
def AppState.toRest (app : AppState) (id : PluginId) : ℕ := (app.engine id).weigh LoopPhase.toRest

def AppState.toCollect (app : AppState) (id : PluginId) : ℕ :=
  (app.engine id).weigh LoopPhase.toCollect

section Weights

theorem LoopPhase.toRest_le (phase : LoopPhase) : phase.toRest ≤ 8 := by
  cases phase <;> simp [toRest]

theorem LoopPhase.toCollect_le (phase : LoopPhase) : phase.toCollect ≤ 1 := by
  cases phase <;> simp [toCollect]

/-- One loop runs at most, so its weight is that of all. -/
theorem Engine.Registered.weigh_le {engine : Engine} (registered : engine.Registered)
    {weight : LoopPhase → ℕ} {most : ℕ} (bounded : ∀ phase, weight phase ≤ most)
    (stopped : weight .stopped = 0) :
    engine.weigh weight ≤ if engine.collectors.isSome then most else 0 := by
  have counted : ∀ loops : List Loop, (loops.map fun loop => weight loop.phase).sum ≤
      loops.countP Loop.running * most := by
    intro loops
    induction loops with
    | nil => simp
    | cons loop rest ih =>
        rw [List.map_cons, List.sum_cons, List.countP_cons, Nat.add_mul]
        have head : weight loop.phase ≤ (if loop.running then 1 else 0) * most := by
          cases runs : loop.running with
          | true => simpa using bounded loop.phase
          | false =>
              have ended : loop.phase = .stopped := by
                by_contra running
                simp [Loop.running_iff.mpr running] at runs
              simp [ended, stopped]
        omega
  refine (counted engine.loops).trans ?_
  rw [registered.countP_running]
  split <;> simp

end Weights

section Stretch

variable [NumberText] {action : ServerAction} {labels : List ServerAction}

theorem ServerMove.requests_grow (move : ServerMove setup app action after) :
    (app.requests id).length ≤ (after.requests id).length := by
  obtain ⟨shown, ran⟩ := @ServerMove.shows setup app after id _ action move
  exact @TransitionSystem.run_invariant _ _ (engineSystem (setup.plugin id))
    (fun engine => (app.requests id).length ≤ engine.requests.length) _ _ _
    (fun _ _ _ longer taken => longer.trans (Engine.step_moves taken).requests_grow) le_rfl ran

/-- One step of the server that opens no request for the plugin. -/
theorem ServerMove.rests (move : ServerMove setup app action after) (unasked : app.Unasked setup id)
    (same : (after.requests id).length = (app.requests id).length) :
    (after.Unasked setup id ∧ (after.loops id).length = (app.loops id).length) ∧
      after.toRest id + (if action.drives id then 1 else 0) ≤ app.toRest id ∧
      after.toCollect id + (if action.collectsFor id then 1 else 0) ≤ app.toCollect id := by
  by_cases own : ∃ work, action = .work id work
  · obtain ⟨work, rfl⟩ := own
    cases move with
    | @worked _ _ next stepped _ served =>
        obtain ⟨still, loops, rest, collect⟩ := Engine.step_rests unasked stepped served
        have length : ((app.setEngine id next).loops id).length = (app.loops id).length := by
          simp only [AppState.setEngine, Function.update_self]
          exact loops
        refine ⟨⟨?_, length⟩, ?_⟩ <;> simp only [AppState.Unasked, AppState.toRest, AppState.toCollect, AppState.engine_setEngine_self,
          ServerAction.drives, ServerAction.collectsFor, decide_true, Bool.true_and]
        · exact still
        · exact ⟨rest, collect⟩
  · obtain ⟨shown, ran⟩ := @ServerMove.shows setup app after id _ action move
    have others : action.drives id = false ∧ action.collectsFor id = false := by
      cases action with
      | work other work =>
          have different : other ≠ id := fun same => own ⟨work, by rw [same]⟩
          simp [ServerAction.drives, ServerAction.collectsFor, different]
      | _ => exact ⟨rfl, rfl⟩
    obtain ⟨still, rest⟩ := Engine.run_rests (.inl rfl) unasked ran same
    obtain ⟨_, collect⟩ := Engine.run_rests (.inr rfl) unasked ran same
    rw [others.1, others.2]
    exact ⟨still, rest, collect⟩

theorem AppState.run_spends (unasked : app.Unasked setup id)
    (ran : (serverSystem setup).run app labels = some after)
    (same : (after.requests id).length = (app.requests id).length) :
    (after.Unasked setup id ∧ (after.loops id).length = (app.loops id).length) ∧
      after.toRest id + labels.countP (ServerAction.drives id) ≤ app.toRest id ∧
      after.toCollect id + labels.countP (ServerAction.collectsFor id) ≤ app.toCollect id := by
  have spent {measure : AppState → ℕ} {costs : ServerAction → Bool}
      (paid : ∀ {before label next}, ServerMove setup before label next → before.Unasked setup id →
        (next.requests id).length = (before.requests id).length →
        (next.Unasked setup id ∧ (next.loops id).length = (before.loops id).length) ∧
          measure next + (if costs label then 1 else 0) ≤ measure before) :
      (after.Unasked setup id ∧ (after.loops id).length = (app.loops id).length) ∧
        measure after + labels.countP costs ≤ measure app := by
    rw [List.countP_eq_length_filter, ← sum_map_ite]
    refine @TransitionSystem.run_measure _ _ (serverSystem setup)
      (fun later => later.Unasked setup id ∧ (later.loops id).length = (app.loops id).length) app
      after labels (fun app => (app.requests id).length) measure (fun label => if costs label then 1 else 0)
      (fun _ _ _ taken => (AppState.step_moves taken).requests_grow)
      (fun _ _ _ kept taken same => ?_) ⟨unasked, rfl⟩ ran same
    obtain ⟨⟨still, loops⟩, less⟩ := paid (AppState.step_moves taken) kept.1 same
    exact ⟨⟨still, loops.trans kept.2⟩, less⟩
  obtain ⟨still, rest⟩ := spent fun move unasked same => (move.rests unasked same).imp_right And.left
  exact ⟨still, rest, (spent fun move unasked same => (move.rests unasked same).imp_right And.right).2⟩

end Stretch

section Ending

variable [NumberText] {label : ServerAction}

/-- The tasks alone, and time, take the plugin to rest, and no request notices. -/
def AppState.Rests (setup : ServerSetup) (id : PluginId) (collection : Collection) (app : AppState) :
    Prop :=
  ∃ rest ended, TasksAlone id collection rest ∧ (serverSystem setup).run app rest = some ended ∧
    (∀ id, ended.requests id = app.requests id) ∧ ended.exchanges = app.exchanges ∧
    ended.collectors id = none

/-- What a state needs to go on towards rest. -/
structure AppState.Winding (setup : ServerSetup) (id : PluginId) (app : AppState) : Prop where
  reachable : (serverSystem setup).Reachable app
  objects : app.ObservesObjects
  unasked : app.Unasked setup id

theorem AppState.Rests.trans {middle : AppState} {labels : List ServerAction}
    (ran : (serverSystem setup).run app labels = some middle) (tasks : TasksAlone id collection labels)
    (requests : ∀ id, middle.requests id = app.requests id) (exchanges : middle.exchanges = app.exchanges)
    (rests : middle.Rests setup id collection) : app.Rests setup id collection := by
  obtain ⟨rest, ended, alone, continued, kept, opened, asleep⟩ := rests
  exact ⟨labels ++ rest, ended, tasks.append alone, TransitionSystem.run_trans ran continued,
    fun id => (kept id).trans (requests id), opened.trans exchanges, asleep⟩

theorem AppState.Winding.ticked {elapsed : ℕ} {clock : Clock} (winding : app.Winding setup id)
    (passed : app.clock.advance? elapsed = some clock) :
    (serverSystem setup).step app (.tick elapsed) = some { app with clock } ∧
      ({ app with clock } : AppState).Winding setup id := by
  have stepped : app.step setup (.tick elapsed) = some { app with clock } := by
    rw [step, passed]
    rfl
  have ticked : (serverSystem setup).step app (.tick elapsed) = some { app with clock } := stepped
  have move := step_moves stepped
  exact ⟨ticked, winding.reachable.step ticked,
    move.observesObjects (by simp [ServerAction.CollectsObjects]) winding.objects,
    (move.rests winding.unasked rfl).1.1⟩

/-- One step of the plugin's own loop. -/
theorem AppState.Winding.worked {own : Action} {next : Engine} (winding : app.Winding setup id)
    (taken : (app.engine id).step (setup.plugin id) own = some next) (loops : own.isLoop = true)
    (free : (∃ l, own = .lock l) → app.lockHeld = false)
    (collects : ∀ l value, own = .collect l value → ∃ members, value = .object members) :
    (serverSystem setup).step app (.work id own) = some (app.setEngine id next) ∧
      (∀ other, (app.setEngine id next).requests other = app.requests other) ∧
      (app.setEngine id next).Winding setup id := by
  obtain ⟨_, _, _, _, _, _, requests, _, _⟩ := Engine.step_winds winding.unasked taken loops
  have worked : app.step setup (.work id own) = some (app.setEngine id next) := by
    refine work_of_step taken ?_ ?_ ?_ ?_ fun locking => ?_
    · rintro elapsed rfl; cases loops
    · rintro rfl; cases loops
    · rintro r rfl; cases loops
    · rintro other nowSys value rfl; cases loops
    · rcases locking with ⟨r, rfl⟩ | locks
      · cases loops
      · exact free locks
  have stepped : (serverSystem setup).step app (.work id own) = some (app.setEngine id next) := worked
  have move := step_moves worked
  have kept : ∀ other, (app.setEngine id next).requests other = app.requests other := by
    intro other
    change Function.update app.requests id next.requests other = app.requests other
    rw [requests]
    exact congrFun (Function.update_eq_self id app.requests) other
  refine ⟨stepped, kept, winding.reachable.step stepped, ?_, ?_⟩
  · refine move.observesObjects (fun other l value same => ?_) winding.objects
    cases same
    exact collects l value rfl
  · exact (move.rests winding.unasked (congrArg List.length (kept id))).1.1

/-- The way goes on after a step of the loop that collects nothing. -/
theorem AppState.Winding.work {own : Action} {next : Engine} (winding : app.Winding setup id)
    (taken : (app.engine id).step (setup.plugin id) own = some next) (loops : own.isLoop = true)
    (free : (∃ l, own = .lock l) → app.lockHeld = false) (idle : ∀ l value, own ≠ .collect l value)
    (given : (ServerAction.work id own).Given id collection)
    (continues : (app.setEngine id next).Winding setup id →
      (app.setEngine id next).Rests setup id collection) : app.Rests setup id collection := by
  obtain ⟨stepped, kept, later⟩ :=
    winding.worked taken loops free fun l value same => absurd same (idle l value)
  refine .trans (TransitionSystem.run_of_step stepped) (.of_given (by simpa using given) ?_) kept rfl
    (continues later)
  intro l value member
  rw [List.mem_singleton] at member
  cases member
  exact idle l value rfl

omit [NumberText] in
theorem AppState.loop_moved {engine : Engine} {moved : Loop} (found : engine.loops[l]? = some loop) :
    ((app.setEngine id (engine.setLoop l moved)).loops id)[l]? = some moved := by
  change (Function.update app.loops id (engine.setLoop l moved).loops id)[l]? = some moved
  rw [Function.update_self, Engine.loops_setLoop found, if_pos rfl]

theorem AppState.Winding.of_rechecking (winding : app.Winding setup id)
    (found : (app.loops id)[l]? = some loop) (at_ : loop.phase = .rechecking) :
    app.Rests setup id collection := by
  obtain ⟨idleTimeout, timed, idle⟩ := winding.unasked.idle
  have known : (app.engine id).loops[l]? = some loop := found
  have taken : (app.engine id).step (setup.plugin id) (.recheck l) =
      some (({ app.engine id with collectors := none } : Engine).setLoop l
        { loop with phase := .stopped }) := by
    simp [Engine.step, Engine.recheck, known, at_, timed, idle]
  refine winding.work taken rfl (by simp) (by simp) trivial fun _ =>
    ⟨[], _, .of_given (by simp) (by simp), rfl, fun _ => rfl, rfl, ?_⟩
  exact Function.update_self ..

theorem AppState.Winding.of_locking
    (runs : ∀ id, isRegistered setup.config id = true → setup.config.Runs setup.crates id)
    (winding : app.Winding setup id) (found : (app.loops id)[l]? = some loop)
    (at_ : loop.phase = .locking) : app.Rests setup id collection := by
  obtain ⟨first, middle, releases, ran, unheld, _, requests, opened, loops, objects⟩ :=
    release runs winding.reachable winding.objects
  have registered := registered_of_reachable (engine_reachable winding.reachable id)
  -- The only loop of this plugin that runs is not inside the lock yet.
  have outside : ∀ k, ¬ app.Holds (id, k) := by
    rintro k ⟨holder, known, inside⟩
    have live := registered.latest l ⟨loop, found, by simp [at_]⟩
    have other := registered.latest k ⟨holder, known, by simp [inside]⟩
    obtain rfl : k = l := by omega
    have same : (app.loops id)[k]? = some holder := known
    rw [found] at same
    cases same
    rw [at_] at inside
    cases inside
  have stays : (middle.loops id)[l]? = some loop := by rw [loops id outside, found]
  have free : (middle.engine id).lockHeld = false := by
    refine Bool.eq_false_of_not_eq_true fun held => ?_
    obtain ⟨k, rechecks⟩ := Engine.lockHeld_iff.mp held
    rw [lockHeld_iff.mpr ⟨(id, k), rechecks⟩] at unheld
    cases unheld
  have moved : middle.Winding setup id :=
    ⟨winding.reachable.run ran, objects,
      (run_spends winding.unasked ran (congrArg List.length (requests id))).1.1⟩
  have known : (middle.engine id).loops[l]? = some loop := stays
  have taken : (middle.engine id).step (setup.plugin id) (.lock l) =
      some ((middle.engine id).setLoop l { loop with phase := .rechecking }) := by
    simp [Engine.step, Engine.lock, known, at_, free]
  refine .trans ran (.of_given (fun label member => ?_) fun k value member => ?_) requests opened
    (moved.work taken rfl (fun _ => unheld) (by simp) trivial fun next => ?_)
  · obtain ⟨_, _, rfl⟩ := releases label member
    trivial
  · obtain ⟨_, _, same⟩ := releases _ member
    cases same
  · exact next.of_rechecking (loop_moved known) rfl

theorem AppState.Winding.of_sleeping
    (runs : ∀ id, isRegistered setup.config id = true → setup.config.Runs setup.crates id)
    (winding : app.Winding setup id) (found : (app.loops id)[l]? = some loop) {wakesAt : ℕ}
    (at_ : loop.phase = .sleeping wakesAt) (inRange : wakesAt / 10 ^ 6 < 2 ^ 63) :
    app.Rests setup id collection := by
  -- Time passes up to the wake-up, unless it is there already.
  obtain ⟨clock, passed, woken⟩ : ∃ clock : Clock,
      app.clock.advance? (wakesAt - app.clock.nanos) = some clock ∧ wakesAt ≤ clock.nanos := by
    rcases Nat.le_total wakesAt app.clock.nanos with past | future
    · exact ⟨app.clock, Clock.advance?_eq_some.mpr (by omega), past⟩
    · exact ⟨⟨wakesAt, inRange⟩, Clock.advance?_eq_some.mpr (Nat.add_sub_cancel' future).symm, le_rfl⟩
  obtain ⟨ticked, later⟩ := winding.ticked passed
  obtain ⟨idleTimeout, timed, idle⟩ := later.unasked.idle
  have known : (({ app with clock } : AppState).engine id).loops[l]? = some loop := found
  have woken : wakesAt ≤ (({ app with clock } : AppState).engine id).now := woken
  have taken : (({ app with clock } : AppState).engine id).step (setup.plugin id) (.idleCheck l) =
      some ((({ app with clock } : AppState).engine id).setLoop l { loop with phase := .locking }) := by
    simp [Engine.step, Engine.idleCheck, known, at_, timed, idle, woken]
  refine .trans (TransitionSystem.run_of_step ticked)
    (.of_given (by simp [ServerAction.Given]) (by simp)) (fun _ => rfl) rfl
    (later.work taken rfl (by simp) (by simp) trivial fun next => ?_)
  exact next.of_locking runs (loop_moved known) rfl

section Cycle

variable (runs : ∀ id, isRegistered setup.config id = true → setup.config.Runs setup.crates id)
variable (inRange : (app.clock.nanos + loop.refresh.nanos) / 10 ^ 6 < 2 ^ 63)
include runs inRange

theorem AppState.Winding.of_resting (winding : app.Winding setup id)
    (found : (app.loops id)[l]? = some loop) (at_ : loop.phase = .resting) : app.Rests setup id collection := by
  have known : (app.engine id).loops[l]? = some loop := found
  have taken : (app.engine id).step (setup.plugin id) (.sleep l) = some ((app.engine id).setLoop l
      { loop with phase := .sleeping ((app.engine id).now + loop.refresh.nanos) }) := by
    simp [Engine.step, Engine.sleep, known, at_]
  exact winding.work taken rfl (by simp) (by simp) trivial fun next =>
    next.of_sleeping runs (loop_moved known) rfl inRange

theorem AppState.Winding.of_notifying (winding : app.Winding setup id)
    (found : (app.loops id)[l]? = some loop) (at_ : loop.phase = .notifying) : app.Rests setup id collection := by
  have known : (app.engine id).loops[l]? = some loop := found
  have taken : (app.engine id).step (setup.plugin id) (.setReady l) = some ((app.engine id).setLoop l
      { loop with phase := .resting, ready := true }) := by
    simp [Engine.step, Engine.setReady, known, at_]
  exact winding.work taken rfl (by simp) (by simp) trivial fun next =>
    next.of_resting runs (by exact inRange) (loop_moved known) rfl

theorem AppState.Winding.of_publishing (winding : app.Winding setup id)
    (found : (app.loops id)[l]? = some loop) {body : Json} (at_ : loop.phase = .publishing body) :
    app.Rests setup id collection := by
  have known : (app.engine id).loops[l]? = some loop := found
  have taken : (app.engine id).step (setup.plugin id) (.publish l) =
      some (({ app.engine id with store := some ⟨body, l⟩ } : Engine).setLoop l
        { loop with phase := .notifying, published := loop.published + 1 }) := by
    simp [Engine.step, Engine.publish, known, at_]
  have stored : ({ app.engine id with store := some ⟨body, l⟩ } : Engine).loops[l]? = some loop := known
  exact winding.work taken rfl (by simp) (by simp) trivial fun next =>
    next.of_notifying runs (by exact inRange) (loop_moved stored) rfl

theorem AppState.Winding.of_observing (winding : app.Winding setup id)
    (found : (app.loops id)[l]? = some loop) {value : Json} (at_ : loop.phase = .observing value) :
    app.Rests setup id collection := by
  have known : (app.engine id).loops[l]? = some loop := found
  obtain ⟨members, rfl⟩ := winding.objects id l loop value found at_
  obtain ⟨out, called⟩ := @observe_total _ setup.crates setup.config app.alerts
    { plugin := id, now := app.clock.nanos, nowSys := collection.nowSys, payload := .object members }
    (runs id (registered_of_loop winding.reachable found))
    (coherent_of_reachable (engine_reachable winding.reachable id)) members rfl
  have called : (app.engine id).alerts.observe (setup.plugin id).config
      { plugin := (setup.plugin id).id, now := (app.engine id).now, nowSys := collection.nowSys,
        payload := .object members } = some out := called
  have taken : (app.engine id).step (setup.plugin id) (.observe l collection.nowSys) =
      some (((app.engine id).record out).setLoop l
        { loop with phase := .publishing out.value, observed := loop.observed + 1 }) := by
    simp [Engine.step, Engine.observe, known, at_, called]
  have recorded : ((app.engine id).record out).loops[l]? = some loop := known
  exact winding.work taken rfl (by simp) (by simp) ⟨rfl, rfl⟩ fun next =>
    next.of_publishing runs (by exact inRange) (loop_moved recorded) rfl

omit inRange in
/-- Whatever the collection returns and however long it takes. -/
theorem AppState.Winding.of_collecting (winding : app.Winding setup id)
    (inRange : (app.clock.nanos + collection.elapsed + loop.refresh.nanos) / 10 ^ 6 < 2 ^ 63)
    (found : (app.loops id)[l]? = some loop) (at_ : loop.phase = .collecting) :
    app.Rests setup id collection := by
  have awaited : (app.clock.nanos + collection.elapsed) / 10 ^ 6 < 2 ^ 63 :=
    (Nat.div_le_div_right (Nat.le_add_right _ _)).trans_lt inRange
  have passed : app.clock.advance? collection.elapsed =
      some ⟨app.clock.nanos + collection.elapsed, awaited⟩ := Clock.advance?_eq_some.mpr rfl
  obtain ⟨ticked, later⟩ := winding.ticked passed
  generalize ends : ({ app with clock := ⟨app.clock.nanos + collection.elapsed, awaited⟩ } : AppState) =
    middle at ticked later
  have known : (middle.engine id).loops[l]? = some loop := ends ▸ found
  obtain ⟨_, timed, _⟩ := winding.unasked.idle
  have taken : (middle.engine id).step (setup.plugin id) (.collect l (.object collection.members)) =
      some ((middle.engine id).setLoop l
        { loop with phase := .observing (.object collection.members) }) := by
    simp [Engine.step, Engine.collect, known, at_, timed]
  obtain ⟨stepped, kept, continued⟩ := later.worked taken rfl (by simp) (by simp)
  have ran := TransitionSystem.run_trans (TransitionSystem.run_of_step ticked)
    (TransitionSystem.run_of_step stepped)
  refine .trans ran ⟨?_, fun k value member => ?_⟩ (fun other => (kept other).trans (ends ▸ rfl))
    (ends ▸ rfl) (continued.of_observing runs ?_ (loop_moved known) rfl)
  · simp [ServerAction.Given]
  · obtain ⟨rfl, rfl⟩ : k = l ∧ value = .object collection.members := by simpa using member
    exact List.infix_refl _
  · subst ends
    exact inRange

omit inRange in
/-- Wherever the loop of the plugin stands, it can end. -/
theorem AppState.Winding.rests (winding : app.Winding setup id)
    (inRange : (app.clock.nanos + collection.elapsed + loop.refresh.nanos) / 10 ^ 6 < 2 ^ 63)
    (found : (app.loops id)[l]? = some loop) (running : loop.phase ≠ .stopped) :
    app.Rests setup id collection := by
  have sooner : (app.clock.nanos + loop.refresh.nanos) / 10 ^ 6 < 2 ^ 63 :=
    (Nat.div_le_div_right (by omega)).trans_lt inRange
  cases at_ : loop.phase with
  | collecting => exact winding.of_collecting runs inRange found at_
  | observing value => exact winding.of_observing runs sooner found at_
  | publishing body => exact winding.of_publishing runs sooner found at_
  | notifying => exact winding.of_notifying runs sooner found at_
  | resting => exact winding.of_resting runs sooner found at_
  | sleeping wakesAt =>
      have soon := wakesSoon_of_reachable (engine_reachable winding.reachable id) loop
        (List.mem_of_getElem? found) wakesAt at_
      exact winding.of_sleeping runs found at_ ((Nat.div_le_div_right soon).trans_lt sooner)
  | locking => exact winding.of_locking runs found at_
  | rechecking => exact winding.of_rechecking found at_
  | stopped => exact absurd at_ running

end Cycle

/-- From the time a plugin is idle, with every request so far through the registry and
none added: no loop starts, and the one that runs, if there is one, takes eight more steps
at most, one of them a collection. Whatever has happened since, whatever that collection
returns and however long it takes, the tasks alone and time can take the plugin to rest. -/
theorem rests_unasked
    (runs : ∀ id, isRegistered setup.config id = true → setup.config.Runs setup.crates id)
    {before labels : List ServerAction} (collects : ∀ label ∈ before ++ labels, label.CollectsObjects)
    (reached : (serverSystem setup).run (serverSystem setup).init before = some app)
    {idleTimeout : Duration} (timed : setup.config.idleTimeoutFor id.asStr = some idleTimeout)
    (idle : idleTimeout ≤ (app.engine id).idleFor)
    (looked : ∀ request ∈ app.requests id, request.phase ≠ .locking)
    (ran : (serverSystem setup).run app labels = some after)
    (unasked : (after.requests id).length = (app.requests id).length) :
    (after.loops id).length = (app.loops id).length ∧
      labels.countP (ServerAction.drives id) ≤ (if (app.collectors id).isSome then 8 else 0) ∧
      labels.countP (ServerAction.collectsFor id) ≤ (if (app.collectors id).isSome then 1 else 0) ∧
      ∀ collection : Collection, (∀ loop ∈ after.loops id,
          (after.clock.nanos + collection.elapsed + loop.refresh.nanos) / 10 ^ 6 < 2 ^ 63) →
        ∃ rest ended, TasksAlone id collection rest ∧
          (serverSystem setup).run after rest = some ended ∧
          (∀ id, ended.requests id = after.requests id) ∧ ended.exchanges = after.exchanges ∧
          ended.collectors id = none ∧ ∀ loop ∈ ended.loops id, loop.phase = .stopped := by
  have reachable : (serverSystem setup).Reachable app := ⟨before, reached⟩
  have registered := registered_of_reachable (engine_reachable reachable id)
  have quiet : app.Unasked setup id := ⟨⟨idleTimeout, timed, idle⟩, looked⟩
  obtain ⟨⟨still, loops⟩, rest, collect⟩ := AppState.run_spends quiet ran unasked
  refine ⟨loops, ?_, ?_, fun collection inRange => ?_⟩
  · exact (Nat.le_of_add_left_le rest).trans
      (registered.weigh_le LoopPhase.toRest_le rfl)
  · exact (Nat.le_of_add_left_le collect).trans
      (registered.weigh_le LoopPhase.toCollect_le rfl)
  · have objects : after.ObservesObjects := by
      refine TransitionSystem.run_invariant_of_labels
        (fun label member before after objects taken =>
          (AppState.step_moves taken).observesObjects (collects label member) objects) ?_
        (TransitionSystem.run_trans reached ran)
      intro id l loop value known
      simp [serverSystem] at known
    have winding : after.Winding setup id := ⟨reachable.run ran, objects, still⟩
    have rests : after.Rests setup id collection := by
      have active := registered_of_reachable (engine_reachable winding.reachable id)
      cases entered : after.collectors id with
      | none => exact ⟨[], after, .of_given (by simp) (by simp), rfl, fun _ => rfl, rfl, entered⟩
      | some collector =>
          obtain ⟨loop, found, running⟩ := (active.entry collector.ready.channel).mp entered
          have known : (after.loops id)[collector.ready.channel]? = some loop := found
          exact winding.rests runs (inRange loop (List.mem_of_getElem? known)) known running
    obtain ⟨rest, ended, works, continued, requests, exchanges, asleep⟩ := rests
    refine ⟨rest, ended, works, continued, requests, exchanges, asleep, fun loop member => ?_⟩
    have last := registered_of_reachable (engine_reachable (winding.reachable.run continued) id)
    obtain ⟨l, found⟩ := List.mem_iff_getElem?.mp member
    by_contra running
    have entered : ended.collectors id = some ⟨⟨l⟩⟩ := (last.entry l).mpr ⟨loop, found, running⟩
    rw [asleep] at entered
    cases entered

end Ending

/-- A client that leaves before its first answer. -/
def leftAlone : List ServerAction :=
  [.receive (.plugin "cpu") { headers := [] }, .work .cpu (.lookup 0), .abandon 0, .tick (10 ^ 12)]

def lastCycle : List ServerAction :=
  [.tick warmUp.elapsed, .work .cpu (.collect 0 (.object warmUp.members)),
    .receive (.plugin "load") { headers := [] }, .work .cpu (.observe 0 0)]

theorem leftAlone_rests_unasked : ∃ app after rest ended,
    (@serverSystem .integers defaultServer).run (@serverSystem .integers defaultServer).init leftAlone =
      some app ∧
    (@serverSystem .integers defaultServer).run app lastCycle = some after ∧
    lastCycle.countP (ServerAction.collectsFor .cpu) = 1 ∧ TasksAlone .cpu warmUp rest ∧
    (@serverSystem .integers defaultServer).run after rest = some ended ∧
    ended.collectors .cpu = none := by
  have evaluated : ((@serverSystem .integers defaultServer).run
      (@serverSystem .integers defaultServer).init leftAlone).bind (fun app =>
        ((@serverSystem .integers defaultServer).run app lastCycle).map fun after =>
          (decide ((⟨10 * 10 ^ 9, by decide⟩ : Duration) ≤ (app.engine .cpu).idleFor),
            (app.requests .cpu).all (fun request =>
              match request.phase with
              | .dropped => true
              | _ => false),
            decide ((after.requests .cpu).length = (app.requests .cpu).length),
            (after.loops .cpu).all fun loop =>
              decide ((after.clock.nanos + warmUp.elapsed + loop.refresh.nanos) / 10 ^ 6 < 2 ^ 63))) =
      some (true, true, true, true) := by
    decide +kernel
  obtain ⟨app, reached, continued⟩ := Option.bind_eq_some_iff.mp evaluated
  obtain ⟨after, ran, shown⟩ := Option.map_eq_some_iff.mp continued
  simp only [Prod.mk.injEq, decide_eq_true_eq, List.all_eq_true] at shown
  obtain ⟨idle, gone, unasked, inRange⟩ := shown
  have timed : defaultServer.config.idleTimeoutFor PluginId.cpu.asStr =
      some ⟨10 * 10 ^ 9, by decide⟩ := by
    decide +kernel
  have collects : ∀ label ∈ leftAlone ++ lastCycle, label.CollectsObjects := by
    simp [leftAlone, lastCycle, ServerAction.CollectsObjects]
  obtain ⟨_, _, _, ends⟩ := @rests_unasked defaultServer app after .cpu .integers
    (fun id _ => defaultServer_runs id) leftAlone lastCycle collects reached _ timed idle
    (fun request member at_ => by simpa [at_] using gone request member) ran unasked
  obtain ⟨rest, ended, alone, stopped, _, _, asleep, _⟩ := ends warmUp inRange
  exact ⟨app, after, rest, ended, reached, ran, by decide, alone, stopped, asleep⟩

end GlancesRs
