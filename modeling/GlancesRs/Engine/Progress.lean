import GlancesRs.Config.Timing
import GlancesRs.Engine.Freshness
import GlancesRs.Engine.Phases
import GlancesRs.Engine.Race
import GlancesRs.Engine.Wake

namespace GlancesRs

open Data

/-! A waiting request can always be served: the loop it joined has published, or is
in its first cycle, which nothing but its own steps holds up. -/

section Calls

variable [NumberText] {crates : Crates} {config : Config} {alerts : Alerts} {cycle : Cycle}

/-- Where all durations come out, a cycle over an object is observed without a panic. -/
theorem observe_total (runs : config.Runs crates cycle.plugin) (coherent : alerts.inner.Coherent)
    {members : List (String × Json)} (payload : cycle.payload = .object members) :
    ∃ out, alerts.observe config cycle = some out := by
  cases watching : watched config cycle.plugin with
  | false => exact ⟨_, observe_unwatched watching⟩
  | true =>
      obtain ⟨minDuration, window⟩ := runs.minDuration
      obtain ⟨refresh, twice, _, timed, doubled, _⟩ := runs.refresh
      obtain ⟨reset, gap⟩ : ∃ reset,
          gapReset refresh (alerts.inner.lastSeen cycle.plugin) cycle.now = some reset := by
        cases alerts.inner.lastSeen cycle.plugin <;> simp [gapReset, doubled]
      obtain ⟨inner, committed, looped, _⟩ :=
        reconcileAll_refines alerts.hostname cycle minDuration config.alerts.historySize
          (coherent.sweep cycle.now reset (scan config cycle.plugin cycle.payload).live)
          (scan config cycle.plugin cycle.payload).observations
      simp only [watched, Bool.and_eq_true, Bool.not_eq_true'] at watching
      rw [payload] at looped
      simp only [Alerts.observe, watching.1, watching.2, Bool.not_true, Bool.false_eq_true, if_false,
        window, timed, gap, payload, Json.setKey?, Option.bind_eq_bind, Option.bind_some]
      rw [looped]
      exact ⟨_, rfl⟩

end Calls

variable {setup : Setup} {engine next after : Engine} {action : Action} {l r : ℕ} {loop : Loop}

/-- What the system makes of one cycle: the object `collect` returns, the time it takes
to, and the wall clock when the alerts see it. -/
structure Collection where
  members : List (String × Json)
  elapsed : ℕ
  nowSys : SystemTime

variable {collection : Collection}

/-- The steps from a phase to the end of the first cycle. -/
def LoopPhase.toReady (l : ℕ) (collection : Collection) : LoopPhase → List Action
  | .collecting =>
      [.tick collection.elapsed, .collect l (.object collection.members),
        .observe l collection.nowSys, .publish l, .setReady l]
  | .observing _ => [.observe l collection.nowSys, .publish l, .setReady l]
  | .publishing _ => [.publish l, .setReady l]
  | .notifying => [.setReady l]
  | _ => []

/-- The time these steps take. -/
def LoopPhase.awaits (collection : Collection) : LoopPhase → ℕ
  | .collecting => collection.elapsed
  | _ => 0

/-- The steps that need neither the registry lock nor a request. -/
def Action.local : Action → Bool
  | .tick _ | .poll _ | .read _ | .collect _ _ | .observe _ _ | .publish _ | .setReady _ => true
  | _ => false

theorem Action.local_ne (unlocked : action.local = true) :
    action ≠ .arrive ∧ (∀ r, action ≠ .drop r) ∧
      (∀ id nowSys value, action ≠ .observeOther id nowSys value) ∧ (∀ r, action ≠ .lookup r) ∧
      ∀ l, action ≠ .lock l := by
  cases action with
  | tick | poll | read | collect | observe | publish | setReady => simp
  | _ => cases unlocked

theorem LoopPhase.toReady_local {phase : LoopPhase} :
    ∀ action ∈ phase.toReady l collection, action.local = true := by
  cases phase <;> simp [toReady, Action.local]

section Cycle

variable [NumberText] {actions : List Action} {passed waited : ℕ}

/-- Loop `l` has published `waited` nanoseconds later, and the requests are as they were. -/
structure Engine.Completed (engine : Engine) (l waited : ℕ) (after : Engine) : Prop where
  requests : after.requests = engine.requests
  clock : after.clock.nanos = engine.clock.nanos + waited
  stored : after.store.isSome = true
  notified : ∃ loop, after.loops[l]? = some loop ∧ loop.ready = true

def Engine.Completes (setup : Setup) (l : ℕ) (actions : List Action) (waited : ℕ) (engine : Engine) :
    Prop :=
  ∃ after, (engineSystem setup).run engine actions = some after ∧ engine.Completed l waited after

theorem Engine.Completes.cons (taken : engine.step setup action = some next)
    (same : next.requests = engine.requests) (later : next.clock.nanos = engine.clock.nanos + passed)
    (completes : next.Completes setup l actions waited) :
    engine.Completes setup l (action :: actions) (passed + waited) := by
  obtain ⟨after, ran, completed⟩ := completes
  have first : (engineSystem setup).step engine action = some next := taken
  refine ⟨after, ?_, completed.requests.trans same, ?_, completed.stored, completed.notified⟩
  · rw [TransitionSystem.run_cons, first]
    exact ran
  · rw [completed.clock, later, Nat.add_assoc]

/-- A step that takes no time. -/
theorem Engine.Completes.cons_now (taken : engine.step setup action = some next)
    (same : next.requests = engine.requests) (now : next.clock = engine.clock)
    (completes : next.Completes setup l actions waited) :
    engine.Completes setup l (action :: actions) waited := by
  have later : next.clock.nanos = engine.clock.nanos + 0 := congrArg Clock.nanos now
  have appended := completes.cons taken same later
  rwa [Nat.zero_add] at appended

theorem Engine.completes_of_notifying (found : engine.loops[l]? = some loop)
    (at_ : loop.phase = .notifying) (stored : engine.store.isSome = true) :
    engine.Completes setup l [.setReady l] 0 := by
  have taken : engine.step setup (.setReady l) =
      some (engine.setLoop l { loop with phase := .resting, ready := true }) := by
    simp [step, setReady, found, at_]
  have moved := (@loops_setLoop _ l l loop
    { loop with phase := .resting, ready := true } found).trans (if_pos rfl)
  exact .cons_now taken rfl rfl ⟨_, rfl, rfl, rfl, stored, _, moved, rfl⟩

theorem Engine.completes_of_publishing {body : Json} (found : engine.loops[l]? = some loop)
    (at_ : loop.phase = .publishing body) : engine.Completes setup l [.publish l, .setReady l] 0 := by
  have taken : engine.step setup (.publish l) =
      some (({ engine with store := some { body, publisher := l } } : Engine).setLoop l
        { loop with phase := .notifying, published := loop.published + 1 }) := by
    simp [step, publish, found, at_]
  have known : ({ engine with store := some ⟨body, l⟩ } : Engine).loops[l]? = some loop := found
  have moved := (@loops_setLoop _ l l loop
    { loop with phase := .notifying, published := loop.published + 1 } known).trans (if_pos rfl)
  exact .cons_now taken rfl rfl (completes_of_notifying moved rfl rfl)

theorem Engine.completes_of_observing (runs : setup.config.Runs setup.crates setup.id)
    (coherent : engine.alerts.inner.Coherent) {members : List (String × Json)} {nowSys : SystemTime}
    (found : engine.loops[l]? = some loop) (at_ : loop.phase = .observing (.object members)) :
    engine.Completes setup l [.observe l nowSys, .publish l, .setReady l] 0 := by
  obtain ⟨out, called⟩ := @observe_total _ setup.crates setup.config engine.alerts
    { plugin := setup.id, now := engine.now, nowSys, payload := .object members } runs coherent
    members rfl
  have taken : engine.step setup (.observe l nowSys) = some ((engine.record out).setLoop l
      { loop with phase := .publishing out.value, observed := loop.observed + 1 }) := by
    simp [step, observe, found, at_, called]
  have known : (engine.record out).loops[l]? = some loop := found
  have moved := (@loops_setLoop _ l l loop
    { loop with phase := .publishing out.value, observed := loop.observed + 1 } known).trans (if_pos rfl)
  exact .cons_now taken rfl rfl (completes_of_publishing moved rfl)

/-- Whatever the collection returns and however long it takes, the cycle comes to its end. -/
theorem Engine.completes_of_collecting (runs : setup.config.Runs setup.crates setup.id)
    (coherent : engine.alerts.inner.Coherent)
    (inRange : (engine.clock.nanos + collection.elapsed) / 10 ^ 6 < 2 ^ 63)
    (found : engine.loops[l]? = some loop) (at_ : loop.phase = .collecting) :
    engine.Completes setup l (LoopPhase.collecting.toReady l collection) collection.elapsed := by
  obtain ⟨_, _, idle, _, _, timed, _⟩ := runs.refresh
  have passed : engine.clock.advance? collection.elapsed =
      some ⟨engine.clock.nanos + collection.elapsed, inRange⟩ := Clock.advance?_eq_some.mpr rfl
  have ticked : engine.step setup (.tick collection.elapsed) =
      some { engine with clock := ⟨engine.clock.nanos + collection.elapsed, inRange⟩ } := by
    rw [step, passed]
    rfl
  have known : ({ engine with clock := ⟨engine.clock.nanos + collection.elapsed, inRange⟩ } :
      Engine).loops[l]? = some loop := found
  have taken : ({ engine with clock := ⟨engine.clock.nanos + collection.elapsed, inRange⟩ } :
      Engine).step setup (.collect l (.object collection.members)) =
      some (({ engine with clock := ⟨engine.clock.nanos + collection.elapsed, inRange⟩ } :
        Engine).setLoop l { loop with phase := .observing (.object collection.members) }) := by
    simp [step, collect, known, at_, timed]
  have moved := (@loops_setLoop _ l l loop
    { loop with phase := .observing (.object collection.members) } known).trans (if_pos rfl)
  refine .cons ticked rfl rfl (.cons_now taken rfl rfl (completes_of_observing runs ?_ moved rfl))
  exact coherent

/-- What a request waits on is the channel of a loop. -/
def Engine.ChannelsKnown (engine : Engine) : Prop :=
  ∀ request ∈ engine.requests, ∀ ready since, request.phase = .waiting ready since →
    ready.channel < engine.loops.length

theorem Moves.channelsKnown (moves : Moves setup engine action after)
    (registered : engine.Registered) (known : engine.ChannelsKnown) : after.ChannelsKnown := by
  have longer : ∀ {more : ℕ}, engine.loops.length ≤ more → ∀ request ∈ engine.requests,
      ∀ ready since, request.phase = .waiting ready since → ready.channel < more :=
    fun grown request member ready since waiting =>
      (known request member ready since waiting).trans_le grown
  cases moves with
  | ticked | observedOther => exact known
  | refused | touched =>
      refine List.forall_mem_append.mpr ⟨known, List.forall_mem_singleton.mpr ?_⟩
      simp
  | joined _ _ _ active =>
      refine Engine.requests_setRequest known fun ready since waiting => ?_
      cases waiting
      obtain ⟨loop, found, _⟩ := (registered.entry _).mp active
      exact (List.getElem?_eq_some_iff.mp found).1
  | spawned =>
      refine Engine.requests_setRequest (longer (by simp [Engine.join, Engine.setRequest, Engine.spawn]))
        fun ready since waiting => ?_
      cases waiting
      simp [Engine.join, Engine.setRequest, Engine.spawn]
  | request found move =>
      refine Engine.requests_setRequest known fun ready since waiting => ?_
      cases move <;> cases waiting
  | loop | observed | published | removed =>
      exact longer (by simp [Engine.setLoop, Engine.record])

theorem channelsKnown_of_reachable (reachable : (engineSystem setup).Reachable engine) :
    engine.ChannelsKnown := by
  refine @TransitionSystem.Reachable.invariant_of_reachable _ _ (engineSystem setup)
    Engine.ChannelsKnown engine (fun request member => ?_)
    (fun before action after reached known taken =>
      (Engine.step_moves taken).channelsKnown (registered_of_reachable reached) known) reachable
  simp [engineSystem] at member

/-- What the progress of one engine rests on. -/
structure Engine.Sound (setup : Setup) (engine : Engine) : Prop where
  fresh : engine.Fresh setup
  coherent : engine.alerts.inner.Coherent
  objects : ∀ (l : ℕ) (loop : Loop) (value : Json), engine.loops[l]? = some loop →
    loop.phase = .observing value → ∃ members, value = .object members
  channels : engine.ChannelsKnown

/-- Wherever a loop stands, its first cycle is over, or comes to its end. -/
theorem Engine.Sound.completes (runs : setup.config.Runs setup.crates setup.id)
    (sound : engine.Sound setup)
    (inRange : (engine.clock.nanos + collection.elapsed) / 10 ^ 6 < 2 ^ 63)
    (found : engine.loops[l]? = some loop) : ∃ phase : LoopPhase,
      engine.Completes setup l (phase.toReady l collection) (phase.awaits collection) := by
  have paced := sound.fresh.paced l loop found
  cases notified : loop.ready with
  | true =>
      obtain ⟨snapshot, stored, _⟩ := sound.fresh.ready found notified
      exact ⟨.resting, engine, rfl, rfl, rfl, by simp [stored], loop, found, notified⟩
  | false =>
      -- A loop that has not notified yet is in its first cycle.
      have rested := paced.rested
      refine ⟨loop.phase, ?_⟩
      cases at_ : loop.phase with
      | collecting => exact completes_of_collecting runs sound.coherent inRange found at_
      | observing value =>
          obtain ⟨members, rfl⟩ := sound.objects l loop value found at_
          exact completes_of_observing runs sound.coherent found at_
      | publishing body => exact completes_of_publishing found at_
      | notifying =>
          obtain ⟨snapshot, stored, _⟩ := sound.fresh.stored l loop found (paced.notifying at_)
          exact completes_of_notifying found at_ (by simp [stored])
      | resting | sleeping | locking | rechecking | stopped => simp [at_, notified] at rested

/-- The request at `r` can be served by steps of the tasks alone: the loop's, up to the end
of its first cycle, and the request's own. -/
def Engine.Serves (setup : Setup) (collection : Collection) (r : ℕ) (engine : Engine) : Prop :=
  ∃ (l : ℕ) (phase : LoopPhase) (own : List Action) (after : Engine) (request : PluginRequest)
      (snapshot : Snapshot), own.Sublist [.poll r, .read r] ∧
    (engineSystem setup).run engine (phase.toReady l collection ++ own) = some after ∧
    after.clock.nanos = engine.clock.nanos + phase.awaits collection ∧
    after.requests[r]? = some request ∧ request.phase = .done (.found snapshot)

theorem Engine.serves_of_reading {request : PluginRequest} (found : engine.requests[r]? = some request)
    (at_ : request.phase = .reading) (stored : engine.store.isSome = true) :
    ∃ after last snapshot, (engineSystem setup).run engine [.read r] = some after ∧
      after.clock = engine.clock ∧ after.requests[r]? = some last ∧
      last.phase = .done (.found snapshot) := by
  obtain ⟨snapshot, known⟩ := Option.isSome_iff_exists.mp stored
  have taken : (engineSystem setup).step engine (.read r) =
      some (engine.setRequest r { request with phase := .done (.found snapshot) }) := by
    simp [engineSystem, step, read, found, at_, Engine.snapshot, known]
  have served := @requests_setRequest_self _ r request
    { request with phase := .done (.found snapshot) } found
  exact ⟨engine.setRequest r _, _, snapshot, TransitionSystem.run_of_step taken, rfl, served, rfl⟩

theorem Engine.Sound.serves_of_waiting (runs : setup.config.Runs setup.crates setup.id)
    (sound : engine.Sound setup)
    (inRange : (engine.clock.nanos + collection.elapsed) / 10 ^ 6 < 2 ^ 63)
    {request : PluginRequest} {ready : Receiver} {since : ℕ}
    (found : engine.requests[r]? = some request) (at_ : request.phase = .waiting ready since) :
    engine.Serves setup collection r := by
  have inside := sound.channels request (List.mem_of_getElem? found) ready since at_
  obtain ⟨phase, middle, ran, completed⟩ :=
    sound.completes runs inRange (List.getElem?_eq_getElem inside)
  obtain ⟨loop, known, notified⟩ := completed.notified
  obtain ⟨guard, guarded⟩ := runs.guard
  have waiting : middle.requests[r]? = some request := by rw [completed.requests, found]
  have polled : (engineSystem setup).step middle (.poll r) =
      some (middle.setRequest r { request with phase := .reading }) := by
    simp [engineSystem, step, poll, waiting, at_, known, guarded, notified]
  have reading := @requests_setRequest_self _ r request { request with phase := .reading } waiting
  obtain ⟨after, last, snapshot, ended, clock, served, done⟩ :=
    @serves_of_reading setup _ r _ _ reading rfl completed.stored
  refine ⟨ready.channel, phase, [.poll r, .read r], after, last, snapshot, List.Sublist.refl _, ?_, ?_,
    served, done⟩
  · refine TransitionSystem.run_trans ran ?_
    rw [TransitionSystem.run_cons, polled]
    exact ended
  · rw [clock]
    exact completed.clock

end Cycle

section Guard

variable {guard : Duration} {deadline : ℕ}

/-- The guard time-out of a request comes after `deadline`. -/
def PluginRequest.GuardedUntil (guard : Duration) (now deadline : ℕ) (request : PluginRequest) : Prop :=
  match request.phase with
  | .locking => deadline < now + guard.nanos
  | .waiting _ since => deadline < since + guard.nanos
  | _ => True

def Engine.GuardedUntil (guard : Duration) (deadline r : ℕ) (engine : Engine) : Prop :=
  ∃ request, engine.requests[r]? = some request ∧ request.GuardedUntil guard engine.now deadline

theorem RequestMove.guardedUntil {request moved : PluginRequest} {now : ℕ}
    (move : RequestMove setup engine request moved) : moved.GuardedUntil guard now deadline := by
  cases move <;> trivial

/-- The guard time-out starts at the lookup, which is not in the past. -/
theorem Moves.guardedUntil [NumberText] (moves : Moves setup engine action after)
    (guarded : engine.GuardedUntil guard deadline r) : after.GuardedUntil guard deadline r := by
  obtain ⟨request, found, guarded⟩ := guarded
  have kept {base : Engine} (here : base.requests[r]? = some request)
      (now : base.clock = engine.clock) : base.GuardedUntil guard deadline r := by
    refine ⟨request, here, ?_⟩
    rw [Engine.now, now]
    exact guarded
  have replaced {r' : ℕ} {former moved : PluginRequest} {base : Engine}
      (known : base.requests[r']? = some former) (here : base.requests[r]? = some request)
      (now : base.clock = engine.clock)
      (own : r' = r → moved.GuardedUntil guard engine.now deadline) :
      (base.setRequest r' moved).GuardedUntil guard deadline r := by
    by_cases same : r' = r
    · refine ⟨moved, ?_, ?_⟩
      · rw [← same]
        exact Engine.requests_setRequest_self known
      · change moved.GuardedUntil guard base.clock.nanos deadline
        rw [now]
        exact own same
    · refine kept ?_ now
      rw [Engine.setRequest, List.getElem?_set_ne same, here]
  have looked {r' : ℕ} {former : PluginRequest}
      (known : engine.requests[r']? = some former) (at_ : former.phase = .locking) (same : r' = r) :
      deadline < engine.now + guard.nanos := by
    subst same
    rw [known] at found
    cases found
    rw [PluginRequest.GuardedUntil, at_] at guarded
    exact guarded
  cases moves with
  | ticked later =>
      refine ⟨request, found, ?_⟩
      rw [PluginRequest.GuardedUntil] at guarded ⊢
      split <;> simp_all only
      exact guarded.trans_le (Nat.add_le_add_right later _)
  | refused | touched =>
      refine kept ?_ rfl
      rw [List.getElem?_append_left (List.getElem?_eq_some_iff.mp found).1, found]
  | joined known at_ => exact replaced known found rfl (looked known at_)
  | spawned known at_ => exact replaced known found rfl (looked known at_)
  | request known move => exact replaced known found rfl fun _ => move.guardedUntil
  | _ => exact kept found rfl

/-- Up to `deadline` no poll ends in the guard time-out. -/
theorem Engine.GuardedUntil.poll (guarded : engine.GuardedUntil guard deadline r)
    (timed : setup.config.guardTimeout = some guard) (early : engine.now ≤ deadline)
    (taken : engine.poll setup r = some after) {request : PluginRequest}
    (found : after.requests[r]? = some request) (waited : ℕ) :
    request.phase ≠ .done (.guardElapsed waited) := by
  obtain ⟨former, known, guarded⟩ := guarded
  obtain ⟨polled, moved, listed, move, rfl⟩ := poll_moves taken
  rw [known] at listed
  cases listed
  rw [requests_setRequest_self known] at found
  cases found
  rw [PluginRequest.GuardedUntil] at guarded
  cases move with
  | elapsed at_ timed' late =>
      rw [timed] at timed'
      cases timed'
      simp only [at_] at guarded
      omega
  | read =>
      rw [Engine.snapshot]
      cases engine.store <;> simp
  | _ => simp

end Guard

end GlancesRs
