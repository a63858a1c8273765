import GlancesRs.Engine.Registry

namespace GlancesRs

open Data

/-! The race contract between requests and a loop about to stop: requests touch
before they lock, the loop re-checks under the lock, and the stored millisecond
is off from the touch by less than one. -/

variable {setup : Setup} {engine after : Engine} {r : ℕ}
variable {request moved : PluginRequest} {touched : ℕ} {idleTimeout : Duration}

def PluginRequest.Refused (request : PluginRequest) : Prop :=
  request.phase = .done .notRegistered ∧ request.joined = none

/-- The latest touch came before now, is what `last_request` holds and is no
older than any request let in. -/
structure Engine.Timely (engine : Engine) : Prop where
  stored : engine.lastRequest = (engine.touchedAt.getD 0 / 10 ^ 6 : ℕ)
  past : ∀ touched, engine.touchedAt = some touched → touched ≤ engine.now
  arrived : ∀ request ∈ engine.requests, request.Refused ∨
    ∃ touched, engine.touchedAt = some touched ∧ request.arrivedAt ≤ touched
  spawned : 0 < engine.loops.length → ∃ touched, engine.touchedAt = some touched

section Idle

theorem Engine.Timely.idleFor (timely : engine.Timely) (known : engine.touchedAt = some touched) :
    touched + engine.idleFor.nanos < engine.now + 10 ^ 6 ∧
      engine.now < touched + engine.idleFor.nanos + 10 ^ 6 := by
  have stored := timely.stored
  rw [known, Option.getD_some] at stored
  have past : touched ≤ engine.clock.nanos := timely.past touched known
  have bounds := sinceMillis_bounds past
  rw [Engine.idleFor, stored, Engine.now]
  omega

theorem Engine.Timely.idle_elapsed (timely : engine.Timely) (known : engine.touchedAt = some touched)
    (unrequested : idleTimeout ≤ engine.idleFor) :
    touched + idleTimeout.nanos < engine.now + 10 ^ 6 :=
  (Nat.add_le_add_left unrequested touched).trans_lt (timely.idleFor known).1

theorem Engine.Timely.idle_of_elapsed (timely : engine.Timely)
    (known : engine.touchedAt = some touched)
    (elapsed : touched + idleTimeout.nanos + 10 ^ 6 ≤ engine.now) :
    idleTimeout ≤ engine.idleFor := by
  have bound := (timely.idleFor known).2
  rw [Duration.le_def]
  omega

end Idle

theorem Engine.requests_setRequest_self (found : engine.requests[r]? = some request) :
    (engine.setRequest r moved).requests[r]? = some moved := by
  have inside : r < engine.requests.length := (List.getElem?_eq_some_iff.mp found).1
  simp [setRequest, inside]

theorem RequestMove.kept (move : RequestMove setup engine request moved) :
    moved.arrivedAt = request.arrivedAt ∧ moved.joined = request.joined ∧ ¬ request.Refused := by
  rw [PluginRequest.Refused]
  cases move <;> simp_all

theorem Engine.Timely.setRequest (timely : engine.Timely) (found : engine.requests[r]? = some request)
    (let_in : ¬ request.Refused) (same : moved.arrivedAt = request.arrivedAt) :
    (engine.setRequest r moved).Timely := by
  refine ⟨timely.stored, timely.past, requests_setRequest timely.arrived (.inr ?_), timely.spawned⟩
  rcases timely.arrived request (List.mem_of_getElem? found) with refused | ⟨touched, known, before⟩
  · exact absurd refused let_in
  · exact ⟨touched, known, same ▸ before⟩

theorem Engine.Timely.congr (timely : engine.Timely) (clock : after.clock = engine.clock)
    (lastRequest : after.lastRequest = engine.lastRequest)
    (touchedAt : after.touchedAt = engine.touchedAt) (requests : after.requests = engine.requests)
    (loops : after.loops.length = engine.loops.length) : after.Timely := by
  refine ⟨?_, ?_, ?_, ?_⟩
  · rw [lastRequest, touchedAt]
    exact timely.stored
  · rw [Engine.now]
    rw [clock, touchedAt]
    exact timely.past
  · rw [requests, touchedAt]
    exact timely.arrived
  · rw [loops, touchedAt]
    exact timely.spawned

def Engine.UntouchedSince (touched start : ℕ) (engine : Engine) : Prop :=
  engine.touchedAt = some touched ∧ start ≤ engine.now

def Engine.HandsOutFrom (first : ℕ) (engine : Engine) : Prop :=
  first ≤ engine.loops.length ∧
    ∀ collector, engine.collectors = some collector → first ≤ collector.ready.channel

theorem Engine.HandsOutFrom.lookup {first : ℕ} (handsOut : engine.HandsOutFrom first)
    (taken : engine.lookup setup r = some after) :
    ∃ request j, after.requests[r]? = some request ∧ request.joined = some j ∧ first ≤ j := by
  obtain ⟨request, found, _, _, joined | spawned⟩ := lookup_cases taken
  · obtain ⟨collector, active, rfl⟩ := joined
    exact ⟨_, _, requests_setRequest_self found, rfl, handsOut.2 collector active⟩
  · obtain ⟨refresh, _, _, rfl⟩ := spawned
    have waiting : (engine.spawn refresh).requests[r]? = some request := found
    exact ⟨_, _, requests_setRequest_self waiting, rfl, handsOut.1⟩

section Steps

variable [NumberText] {action : Action}

theorem Moves.timely (moves : Moves setup engine action after) (timely : engine.Timely) :
    after.Timely := by
  have locking : ∀ {request : PluginRequest}, request.phase = .locking → ¬ request.Refused := by
    intro request at_ refused
    simp [refused.1] at at_
  cases moves with
  | ticked later =>
      exact ⟨timely.stored, fun touched known => (timely.past touched known).trans later,
        timely.arrived, timely.spawned⟩
  | refused =>
      refine ⟨timely.stored, timely.past, List.forall_mem_append.mpr ?_, timely.spawned⟩
      exact ⟨timely.arrived, List.forall_mem_singleton.mpr (.inl ⟨rfl, rfl⟩)⟩
  | touched =>
      refine ⟨?_, fun touched known => ?_, List.forall_mem_append.mpr ⟨fun request former => ?_, ?_⟩,
        fun _ => ⟨_, rfl⟩⟩
      · rw [Clock.nowMillis_eq, Option.getD_some, Engine.now]
      · cases known
        rw [Engine.now]
        exact Nat.le_refl _
      · rcases timely.arrived request former with refused | ⟨earlier, known, before⟩
        · exact .inl refused
        · exact .inr ⟨engine.now, rfl, before.trans (timely.past earlier known)⟩
      · exact List.forall_mem_singleton.mpr (.inr ⟨engine.now, rfl, Nat.le_refl _⟩)
  | joined found at_ => exact timely.setRequest found (locking at_) rfl
  | @spawned _ request refresh found at_ =>
      rcases timely.arrived request (List.mem_of_getElem? found) with refused | ⟨touched, known, _⟩
      · exact absurd refused (locking at_)
      · have entered : (engine.spawn refresh).Timely :=
          ⟨timely.stored, timely.past, timely.arrived, fun _ => ⟨touched, known⟩⟩
        exact entered.setRequest found (locking at_) rfl
  | request found move => exact timely.setRequest found move.kept.2.2 move.kept.1
  | loop | observed | published | removed =>
      exact timely.congr rfl rfl rfl rfl (by simp [Engine.setLoop, Engine.record])
  | observedOther => exact timely.congr rfl rfl rfl rfl rfl

theorem timely_of_reachable (reachable : (engineSystem setup).Reachable engine) : engine.Timely := by
  refine reachable.invariant ⟨?_, ?_, ?_, ?_⟩ fun before action after timely taken =>
    (Engine.step_moves taken).timely timely
  all_goals simp [engineSystem]

/-- Only an arriving request touches, and the clock never goes back. -/
theorem Moves.untouched (moves : Moves setup engine action after) (quiet : action ≠ .arrive) :
    after.touchedAt = engine.touchedAt ∧ engine.now ≤ after.now := by
  cases moves with
  | ticked later => exact ⟨rfl, later⟩
  | refused | touched => exact absurd rfl quiet
  | _ => exact ⟨rfl, Nat.le_refl _⟩

theorem Moves.handsOutFrom {first : ℕ} (moves : Moves setup engine action after)
    (handsOut : engine.HandsOutFrom first) : after.HandsOutFrom first := by
  obtain ⟨spawned, active⟩ := handsOut
  cases moves with
  | ticked | refused | touched | joined | request | observedOther => exact ⟨spawned, active⟩
  | spawned =>
      refine ⟨?_, fun collector entered => ?_⟩
      · simp only [Engine.join, Engine.setRequest, Engine.spawn, List.length_append]
        omega
      · cases entered
        exact spawned
  | loop | observed | published => exact ⟨by simpa [Engine.record] using spawned, active⟩
  | removed => exact ⟨by simpa using spawned, fun collector entered => by cases entered⟩

/-- An entry goes only when the loop it belongs to removes it. -/
theorem Moves.removal {collector : Collector} (registered : engine.Registered)
    (moves : Moves setup engine action after) (active : engine.collectors = some collector)
    (gone : after.collectors ≠ some collector) :
    after.collectors = none ∧ action = .recheck collector.ready.channel ∧
      ∃ idleTimeout, setup.config.idleTimeoutFor setup.id.asStr = some idleTimeout ∧
        idleTimeout ≤ engine.idleFor := by
  cases moves with
  | spawned _ _ _ inactive =>
      rw [active] at inactive
      cases inactive
  | removed found at_ timed unrequested =>
      have own := (registered.entry _).mpr ⟨_, found, by simp [at_]⟩
      rw [active] at own
      cases own
      exact ⟨rfl, rfl, _, timed, unrequested⟩
  | _ => exact absurd active gone

/-- Loop `l` stops at its next re-check: its entry stands until then, nothing keeps it from
the lock, and under the lock it does remove the entry. -/
def Engine.Stopping (setup : Setup) (l : ℕ) (engine : Engine) : Prop :=
  ∃ loop, engine.loops[l]? = some loop ∧
    ((loop.phase = .locking ∧ engine.collectors = some ⟨⟨l⟩⟩ ∧
        ∃ locked, engine.step setup (.lock l) = some locked) ∨
      (loop.phase = .rechecking ∧ engine.collectors = some ⟨⟨l⟩⟩ ∧
        ∃ after last, engine.step setup (.recheck l) = some after ∧ after.collectors = none ∧
          after.loops[l]? = some last ∧ last.phase = .stopped) ∨
      loop.phase = .stopped)

/-- The contract of the module documentation, with the clock units spelled out. -/
structure RaceContract (setup : Setup) : Prop where
  /-- An entry is removed at a locked re-check only, when the latest touch is older than the
  idle timeout less a millisecond, and with it every request that joined the loop. -/
  removed : ∀ engine action after collector, (engineSystem setup).Reachable engine →
    engine.step setup action = some after → engine.collectors = some collector →
    after.collectors ≠ some collector →
    after.collectors = none ∧ action = .recheck collector.ready.channel ∧
      ∃ idleTimeout touched, setup.config.idleTimeoutFor setup.id.asStr = some idleTimeout ∧
        engine.touchedAt = some touched ∧ touched ≤ engine.now ∧
        touched + idleTimeout.nanos < engine.now + 10 ^ 6 ∧
        ∀ request ∈ engine.requests, request.joined = some collector.ready.channel →
          request.arrivedAt + idleTimeout.nanos < engine.now + 10 ^ 6
  /-- A lookup after the removal joins a loop spawned after it. -/
  rewakes : ∀ engine removed before after collector action labels r,
    (engineSystem setup).Reachable engine → engine.step setup action = some removed →
    engine.collectors = some collector → removed.collectors ≠ some collector →
    (engineSystem setup).run removed labels = some before →
    before.step setup (.lookup r) = some after →
    ∃ request j, after.requests[r]? = some request ∧ request.joined = some j ∧
      removed.loops.length ≤ j
  /-- Without a touch for the idle timeout and a millisecond up to the idle check, the loop goes
  for the lock, and while none comes it is on its way out. -/
  stops : ∀ engine checked l idleTimeout, (engineSystem setup).Reachable engine →
    engine.step setup (.idleCheck l) = some checked →
    setup.config.idleTimeoutFor setup.id.asStr = some idleTimeout →
    (∀ touched, engine.touchedAt = some touched →
      touched + idleTimeout.nanos + 10 ^ 6 ≤ engine.now) →
    (∃ loop, checked.loops[l]? = some loop ∧ loop.phase = .locking) ∧
      ∀ labels before, (engineSystem setup).run checked labels = some before → .arrive ∉ labels →
        before.Stopping setup l

theorem removed_idle {collector : Collector} (reachable : (engineSystem setup).Reachable engine)
    (taken : engine.step setup action = some after) (active : engine.collectors = some collector)
    (gone : after.collectors ≠ some collector) :
    after.collectors = none ∧ action = .recheck collector.ready.channel ∧
      ∃ idleTimeout touched, setup.config.idleTimeoutFor setup.id.asStr = some idleTimeout ∧
        engine.touchedAt = some touched ∧ touched ≤ engine.now ∧
        touched + idleTimeout.nanos < engine.now + 10 ^ 6 ∧
        ∀ request ∈ engine.requests, request.joined = some collector.ready.channel →
          request.arrivedAt + idleTimeout.nanos < engine.now + 10 ^ 6 := by
  have registered := registered_of_reachable reachable
  have timely := timely_of_reachable reachable
  obtain ⟨empty, recheck, idleTimeout, timed, unrequested⟩ :=
    (Engine.step_moves taken).removal registered active gone
  obtain ⟨loop, found, _⟩ := (registered.entry _).mp active
  obtain ⟨touched, known⟩ :=
    timely.spawned (Nat.zero_lt_of_lt (List.getElem?_eq_some_iff.mp found).1)
  have elapsed := timely.idle_elapsed known unrequested
  refine ⟨empty, recheck, idleTimeout, touched, timed, known, timely.past touched known, elapsed,
    fun request member joined => ?_⟩
  rcases timely.arrived request member with ⟨_, alone⟩ | ⟨latest, known', before⟩
  · rw [alone] at joined
    cases joined
  · rw [known] at known'
    cases known'
    omega

theorem removed_rewakes {removed before : Engine} {collector : Collector} {labels : List Action}
    (reachable : (engineSystem setup).Reachable engine)
    (taken : engine.step setup action = some removed) (active : engine.collectors = some collector)
    (gone : removed.collectors ≠ some collector)
    (ran : (engineSystem setup).run removed labels = some before)
    (looked : before.step setup (.lookup r) = some after) :
    ∃ request j, after.requests[r]? = some request ∧ request.joined = some j ∧
      removed.loops.length ≤ j := by
  obtain ⟨empty, _⟩ :=
    (Engine.step_moves taken).removal (registered_of_reachable reachable) active gone
  have initial : removed.HandsOutFrom removed.loops.length := by
    refine ⟨Nat.le_refl _, fun other entered => ?_⟩
    rw [empty] at entered
    cases entered
  have handsOut : before.HandsOutFrom removed.loops.length :=
    TransitionSystem.run_invariant (fun _ _ _ holds stepped =>
      Moves.handsOutFrom (Engine.step_moves stepped) holds) initial ran
  exact handsOut.lookup looked

/-- Where a loop is from its idle check to its end. -/
def LoopPhase.Leaving : LoopPhase → Prop
  | .locking | .rechecking | .stopped => True
  | _ => False

/-- A loop that leaves and finds itself idle is not kept. -/
theorem Moves.leaving {l : ℕ} {loop : Loop} (moves : Moves setup engine action after)
    (idle : ∀ idleTimeout, setup.config.idleTimeoutFor setup.id.asStr = some idleTimeout →
      idleTimeout ≤ engine.idleFor)
    (found : engine.loops[l]? = some loop) (leaving : loop.phase.Leaving) :
    ∃ last, after.loops[l]? = some last ∧ last.phase.Leaving := by
  have stepped : ∀ {k : ℕ} {known moved : Loop}, engine.loops[k]? = some known →
      (known.phase.Leaving → moved.phase.Leaving) →
      ∃ last, (engine.setLoop k moved).loops[l]? = some last ∧ last.phase.Leaving := by
    intro k known moved present leaves
    rw [Engine.loops_setLoop present]
    split
    · rename_i same
      subst same
      rw [found] at present
      cases present
      exact ⟨moved, rfl, leaves leaving⟩
    · exact ⟨loop, found, leaving⟩
  cases moves with
  | ticked | refused | touched | joined | request | observedOther => exact ⟨loop, found, leaving⟩
  | spawned =>
      have inside : l < engine.loops.length := (List.getElem?_eq_some_iff.mp found).1
      refine ⟨loop, ?_, leaving⟩
      rw [Engine.join, Engine.setRequest, Engine.loops_spawn, if_neg inside.ne, found]
  | loop present move =>
      refine stepped present fun leaves => ?_
      cases move with
      | locked => trivial
      | kept _ timed requested => exact absurd (idle _ timed) requested
      | collected at_ | notified at_ | slept at_ | busy at_ | idle at_ =>
          rw [at_] at leaves
          exact leaves.elim
  | observed present at_ | published present at_ =>
      refine stepped present fun leaves => ?_
      rw [at_] at leaves
      exact leaves.elim
  | removed present => exact stepped present fun _ => trivial

/-- A loop that leaves has no other loop in its way. -/
theorem Engine.stopping_of_leaving {l : ℕ} {loop : Loop} (registered : engine.Registered)
    (timed : setup.config.idleTimeoutFor setup.id.asStr = some idleTimeout)
    (idle : idleTimeout ≤ engine.idleFor) (found : engine.loops[l]? = some loop)
    (leaving : loop.phase.Leaving) : engine.Stopping setup l := by
  refine ⟨loop, found, ?_⟩
  cases at_ : loop.phase with
  | stopped => exact .inr (.inr rfl)
  | locking =>
      have free : engine.lockHeld = false := by
        refine List.any_eq_false.mpr fun holder member => ?_
        obtain ⟨k, known⟩ := List.mem_iff_getElem?.mp member
        cases held : holder.phase with
        | rechecking =>
            -- Both would be the loop spawned last.
            have first := registered.latest l ⟨loop, found, by simp [at_]⟩
            have second := registered.latest k ⟨holder, known, by simp [held]⟩
            have same : k = l := by omega
            rw [same, found] at known
            cases known
            rw [at_] at held
            cases held
        | _ => simp
      have entry := (registered.entry l).mpr ⟨loop, found, by simp [at_]⟩
      have taken : engine.step setup (.lock l) =
          some (engine.setLoop l { loop with phase := .rechecking }) := by
        simp [step, lock, found, at_, free]
      exact .inl ⟨rfl, entry, _, taken⟩
  | rechecking =>
      have entry := (registered.entry l).mpr ⟨loop, found, by simp [at_]⟩
      have taken : engine.step setup (.recheck l) =
          some (({ engine with collectors := none } : Engine).setLoop l
            { loop with phase := .stopped }) := by
        simp [step, recheck, found, at_, timed, idle]
      have known : ({ engine with collectors := none } : Engine).loops[l]? = some loop := found
      exact .inr (.inl ⟨rfl, entry, _, _, taken, rfl, (loops_setLoop known).trans (if_pos rfl), rfl⟩)
  | _ =>
      rw [at_] at leaving
      exact leaving.elim

theorem idle_stops {checked : Engine} {l : ℕ} (reachable : (engineSystem setup).Reachable engine)
    (checking : engine.step setup (.idleCheck l) = some checked)
    (timed : setup.config.idleTimeoutFor setup.id.asStr = some idleTimeout)
    (unrequested : ∀ touched, engine.touchedAt = some touched →
      touched + idleTimeout.nanos + 10 ^ 6 ≤ engine.now) :
    (∃ loop, checked.loops[l]? = some loop ∧ loop.phase = .locking) ∧
      ∀ labels before, (engineSystem setup).run checked labels = some before → .arrive ∉ labels →
        before.Stopping setup l := by
  obtain ⟨loop, _, timeout, found, _, _, timed', next⟩ := Engine.idleCheck_cases checking
  rw [timed] at timed'
  cases timed'
  have timely := timely_of_reachable reachable
  obtain ⟨touched, known⟩ :=
    timely.spawned (Nat.zero_lt_of_lt (List.getElem?_eq_some_iff.mp found).1)
  have late := unrequested touched known
  rw [if_pos (timely.idle_of_elapsed known late)] at next
  have locking : ∃ loop, checked.loops[l]? = some loop ∧ loop.phase = .locking := by
    rw [next, Engine.loops_setLoop found, if_pos rfl]
    exact ⟨_, rfl, rfl⟩
  have taken : (engineSystem setup).step engine (.idleCheck l) = some checked := checking
  have reached := reachable.step taken
  have idle : ∀ {later : Engine}, later.Timely → later.UntouchedSince touched engine.now →
      idleTimeout ≤ later.idleFor := by
    intro later still waited
    exact still.idle_of_elapsed waited.1 (late.trans waited.2)
  refine ⟨locking, fun labels before ran quiet => ?_⟩
  -- Nothing but a request could make the re-check see less idleness than the check.
  have leaves : before.Timely ∧ before.UntouchedSince touched engine.now ∧
      ∃ loop, before.loops[l]? = some loop ∧ loop.phase.Leaving := by
    refine @TransitionSystem.run_invariant_of_labels _ _ (engineSystem setup)
      (fun later => later.Timely ∧ later.UntouchedSince touched engine.now ∧
        ∃ loop, later.loops[l]? = some loop ∧ loop.phase.Leaving) checked before labels
      (fun action member state after holds stepped => ?_) ⟨timely_of_reachable reached, ?_, ?_⟩ ran
    · obtain ⟨still, waited, loop, present, leaving⟩ := holds
      have moves : Moves setup state action after := Engine.step_moves stepped
      obtain ⟨same, later⟩ := moves.untouched (ne_of_mem_of_not_mem member quiet)
      refine ⟨moves.timely still, ⟨same.trans waited.1, Nat.le_trans waited.2 later⟩, ?_⟩
      refine moves.leaving (fun other timed' => ?_) present leaving
      rw [timed] at timed'
      cases timed'
      exact idle still waited
    · rw [next]
      exact ⟨known, Nat.le_refl _⟩
    · obtain ⟨loop, present, at_⟩ := locking
      exact ⟨loop, present, by rw [at_]; trivial⟩
  obtain ⟨still, waited, loop, present, leaving⟩ := leaves
  exact Engine.stopping_of_leaving (registered_of_reachable (reached.run ran)) timed
    (idle still waited) present leaving

theorem race_contract (setup : Setup) : RaceContract setup where
  removed _ _ _ _ := removed_idle
  rewakes _ _ _ _ _ _ _ _ := removed_rewakes
  stops _ _ _ _ := idle_stops

end Steps

/-- A request that touched and is kept from the registry until the loop of the other has
been idle for a minute. -/
def idleMinute : List Action :=
  [.arrive, .arrive, .lookup 0, .collect 0 (.object []), .observe 0 0, .publish 0, .setReady 0,
    .poll 0, .read 0, .sleep 0, .tick (60 * 10 ^ 9)]

theorem idleMinute_race_contract :
    ∃ engine checked locked removed woken request j,
      (@engineSystem .integers defaultMemory).run (@engineSystem .integers defaultMemory).init
        idleMinute = some engine ∧
      @Engine.step defaultMemory engine .integers (.idleCheck 0) = some checked ∧
      @Engine.step defaultMemory checked .integers (.lock 0) = some locked ∧
      locked.collectors = some ⟨⟨0⟩⟩ ∧
      @Engine.step defaultMemory locked .integers (.recheck 0) = some removed ∧
      removed.collectors = none ∧
      (∃ loop, removed.loops[0]? = some loop ∧ loop.phase = .stopped) ∧
      (∃ idleTimeout touched, defaultMemory.config.idleTimeoutFor "mem" = some idleTimeout ∧
        locked.touchedAt = some touched ∧ touched + idleTimeout.nanos < locked.now + 10 ^ 6) ∧
      @Engine.step defaultMemory removed .integers (.lookup 1) = some woken ∧
      woken.requests[1]? = some request ∧ request.joined = some j ∧ 1 ≤ j := by
  have timed : (defaultMemory.config.idleTimeoutFor "mem").map Duration.nanos = some (10 ^ 10) := by
    decide +kernel
  have evaluated : ((@engineSystem .integers defaultMemory).run
      (@engineSystem .integers defaultMemory).init idleMinute).bind (fun engine =>
        (@Engine.step defaultMemory engine .integers (.idleCheck 0)).bind fun checked =>
        (@Engine.step defaultMemory checked .integers (.lock 0)).bind fun locked =>
        (@Engine.step defaultMemory locked .integers (.recheck 0)).bind fun removed =>
        (@Engine.step defaultMemory removed .integers (.lookup 1)).map fun _ =>
          (engine.touchedAt, engine.now, removed.loops.length)) = some (some 0, 60 * 10 ^ 9, 1) := by
    decide +kernel
  obtain ⟨idleTimeout, timed, nanos⟩ := Option.map_eq_some_iff.mp timed
  obtain ⟨engine, ran, rest⟩ := Option.bind_eq_some_iff.mp evaluated
  obtain ⟨checked, checking, rest⟩ := Option.bind_eq_some_iff.mp rest
  obtain ⟨locked, locking, rest⟩ := Option.bind_eq_some_iff.mp rest
  obtain ⟨removed, rechecking, rest⟩ := Option.bind_eq_some_iff.mp rest
  obtain ⟨woken, looked, shown⟩ := Option.map_eq_some_iff.mp rest
  simp only [Prod.mk.injEq] at shown
  obtain ⟨touched, now, spawned⟩ := shown
  have reachable : (@engineSystem .integers defaultMemory).Reachable engine := ⟨_, ran⟩
  have ran' : (@engineSystem .integers defaultMemory).run engine [.idleCheck 0, .lock 0] = some locked := by
    simp [engineSystem, checking, locking]
  have locked' : (@engineSystem .integers defaultMemory).run checked [.lock 0] = some locked := by
    simp [engineSystem, locking]
  have late : ∀ latest, engine.touchedAt = some latest →
      latest + idleTimeout.nanos + 10 ^ 6 ≤ engine.now := by
    intro latest known
    rw [touched] at known
    cases known
    omega
  obtain ⟨removes, rewakes, stops⟩ := @race_contract .integers defaultMemory
  have stopping := (stops engine checked 0 idleTimeout reachable checking timed late).2
    [.lock 0] locked locked' (by simp)
  obtain ⟨loop, found, wait | stop | gone⟩ := stopping
  · simp [Engine.step, Engine.recheck, found, wait.1] at rechecking
  · obtain ⟨_, entry, after, last, taken, empty, known, stopped⟩ := stop
    rw [rechecking] at taken
    cases taken
    obtain ⟨_, _, timeout, latest, timed', touched', _, elapsed, _⟩ :=
      removes locked (.recheck 0) removed ⟨⟨0⟩⟩ (reachable.run ran') rechecking entry (by simp [empty])
    obtain ⟨request, j, waiting, joined, later⟩ :=
      rewakes locked removed removed woken ⟨⟨0⟩⟩ (.recheck 0) [] 1 (reachable.run ran') rechecking entry
        (by simp [empty]) rfl looked
    exact ⟨engine, checked, locked, removed, woken, request, j, ran, checking, locking, entry,
      rechecking, empty, ⟨last, known, stopped⟩, ⟨timeout, latest, timed', touched', elapsed⟩, looked,
      waiting, joined, spawned ▸ later⟩
  · simp [Engine.step, Engine.recheck, found, gone] at rechecking

end GlancesRs
