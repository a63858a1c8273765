import GlancesRs.Engine.Model

namespace GlancesRs

open Data

/-! Everything one action of the engine can do, said once. -/

inductive LoopMove (setup : Setup) (engine : Engine) : Loop → Loop → Prop where
  | collected {loop : Loop} {value : Json} (at_ : loop.phase = .collecting) :
      LoopMove setup engine loop { loop with phase := .observing value }
  | notified {loop : Loop} (at_ : loop.phase = .notifying) :
      LoopMove setup engine loop { loop with phase := .resting, ready := true }
  | slept {loop : Loop} (at_ : loop.phase = .resting) :
      LoopMove setup engine loop
        { loop with phase := .sleeping (engine.now + loop.refresh.nanos) }
  | busy {loop : Loop} {wakesAt : ℕ} {idleTimeout : Duration}
      (at_ : loop.phase = .sleeping wakesAt) (woken : wakesAt ≤ engine.now)
      (timed : setup.config.idleTimeoutFor setup.id.asStr = some idleTimeout)
      (requested : ¬ idleTimeout ≤ engine.idleFor) :
      LoopMove setup engine loop { loop with phase := .collecting }
  | idle {loop : Loop} {wakesAt : ℕ} {idleTimeout : Duration}
      (at_ : loop.phase = .sleeping wakesAt) (woken : wakesAt ≤ engine.now)
      (timed : setup.config.idleTimeoutFor setup.id.asStr = some idleTimeout)
      (unrequested : idleTimeout ≤ engine.idleFor) :
      LoopMove setup engine loop { loop with phase := .locking }
  | locked {loop : Loop} (at_ : loop.phase = .locking) (free : engine.lockHeld = false) :
      LoopMove setup engine loop { loop with phase := .rechecking }
  | kept {loop : Loop} {idleTimeout : Duration} (at_ : loop.phase = .rechecking)
      (timed : setup.config.idleTimeoutFor setup.id.asStr = some idleTimeout)
      (requested : ¬ idleTimeout ≤ engine.idleFor) :
      LoopMove setup engine loop { loop with phase := .collecting }

inductive RequestMove (setup : Setup) (engine : Engine) : PluginRequest → PluginRequest → Prop where
  | ready {request : PluginRequest} {ready : Receiver} {since : ℕ} {loop : Loop}
      (at_ : request.phase = .waiting ready since)
      (found : engine.loops[ready.channel]? = some loop) (notified : loop.ready = true) :
      RequestMove setup engine request { request with phase := .reading }
  | senderDropped {request : PluginRequest} {ready : Receiver} {since : ℕ} {loop : Loop}
      (at_ : request.phase = .waiting ready since)
      (found : engine.loops[ready.channel]? = some loop) (silent : loop.ready = false)
      (gone : loop.phase = .stopped) :
      RequestMove setup engine request { request with phase := .done .senderDropped }
  | elapsed {request : PluginRequest} {ready : Receiver} {since : ℕ} {guard : Duration}
      (at_ : request.phase = .waiting ready since)
      (guarded : setup.config.guardTimeout = some guard)
      (late : since + guard.nanos ≤ engine.now) :
      RequestMove setup engine request
        { request with phase := .done (.guardElapsed (engine.now - since)) }
  | read {request : PluginRequest} (at_ : request.phase = .reading) :
      RequestMove setup engine request { request with phase := .done engine.snapshot }
  | dropped {request : PluginRequest} (unfinished : ∀ exit, request.phase ≠ .done exit) :
      RequestMove setup engine request { request with phase := .dropped }

/-- The steps of the engine; what loops and requests do on their own is not
told apart by the action. -/
inductive Moves [NumberText] (setup : Setup) (engine : Engine) : Action → Engine → Prop where
  | ticked {elapsed : ℕ} {clock : Clock} (later : engine.now ≤ clock.nanos) :
      Moves setup engine (.tick elapsed) { engine with clock }
  | refused (disabled : setup.config.pluginEnabled setup.id.asStr = false) :
      Moves setup engine .arrive { engine with
        requests := engine.requests ++ [{ phase := .done .notRegistered, arrivedAt := engine.now }] }
  | touched (enabled : setup.config.pluginEnabled setup.id.asStr = true) :
      Moves setup engine .arrive { engine with
        lastRequest := engine.clock.nowMillis
        touchedAt := some engine.now
        requests := engine.requests ++ [{ phase := .locking, arrivedAt := engine.now }] }
  | joined {r : ℕ} {request : PluginRequest} {collector : Collector}
      (found : engine.requests[r]? = some request) (at_ : request.phase = .locking)
      (free : engine.lockHeld = false) (active : engine.collectors = some collector) :
      Moves setup engine (.lookup r) (engine.join r request collector.ready)
  | spawned {r : ℕ} {request : PluginRequest} {refresh : Duration}
      (found : engine.requests[r]? = some request) (at_ : request.phase = .locking)
      (free : engine.lockHeld = false) (inactive : engine.collectors = none)
      (built : spawnPlugin setup.crates setup.config setup.id = some refresh) :
      Moves setup engine (.lookup r)
        ((engine.spawn refresh).join r request ⟨engine.loops.length⟩)
  | request {action : Action} {r : ℕ} {request moved : PluginRequest}
      (found : engine.requests[r]? = some request)
      (move : RequestMove setup engine request moved) :
      Moves setup engine action (engine.setRequest r moved)
  | loop {action : Action} {l : ℕ} {loop moved : Loop} (found : engine.loops[l]? = some loop)
      (move : LoopMove setup engine loop moved) :
      Moves setup engine action (engine.setLoop l moved)
  | observed {l : ℕ} {loop : Loop} {value : Json} {nowSys : SystemTime} {out : Observed}
      (found : engine.loops[l]? = some loop) (at_ : loop.phase = .observing value)
      (called : engine.alerts.observe setup.config
        { plugin := setup.id, now := engine.now, nowSys, payload := value } = some out) :
      Moves setup engine (.observe l nowSys) ((engine.record out).setLoop l
        { loop with phase := .publishing out.value, observed := loop.observed + 1 })
  | published {l : ℕ} {loop : Loop} {body : Json} (found : engine.loops[l]? = some loop)
      (at_ : loop.phase = .publishing body) :
      Moves setup engine (.publish l)
        (({ engine with store := some { body, publisher := l } } : Engine).setLoop l
          { loop with phase := .notifying, published := loop.published + 1 })
  | removed {l : ℕ} {loop : Loop} {idleTimeout : Duration} (found : engine.loops[l]? = some loop)
      (at_ : loop.phase = .rechecking)
      (timed : setup.config.idleTimeoutFor setup.id.asStr = some idleTimeout)
      (unrequested : idleTimeout ≤ engine.idleFor) :
      Moves setup engine (.recheck l)
        (({ engine with collectors := none } : Engine).setLoop l { loop with phase := .stopped })
  | observedOther {id : PluginId} {nowSys : SystemTime} {value : Json} {out : Observed}
      (other : id ≠ setup.id)
      (called : engine.alerts.observe setup.config
        { plugin := id, now := engine.now, nowSys, payload := value } = some out) :
      Moves setup engine (.observeOther id nowSys value) (engine.record out)

section Inversion

variable {setup : Setup} {engine after : Engine} {r l : ℕ} {nowSys : SystemTime} {value : Json}

theorem Engine.ensurePlugin_enabled (enabled : setup.config.pluginEnabled setup.id.asStr = true) :
    engine.ensurePlugin setup = { engine with
      lastRequest := engine.clock.nowMillis
      touchedAt := some engine.now
      requests := engine.requests ++ [{ phase := .locking, arrivedAt := engine.now }] } := by
  rw [ensurePlugin, if_pos enabled, touch]

theorem Engine.ensurePlugin_disabled
    (disabled : setup.config.pluginEnabled setup.id.asStr = false) :
    engine.ensurePlugin setup = { engine with
      requests := engine.requests ++
        [{ phase := .done .notRegistered, arrivedAt := engine.now }] } := by
  simp [ensurePlugin, disabled]

theorem Engine.lookup_cases (taken : engine.lookup setup r = some after) :
    ∃ request, engine.requests[r]? = some request ∧ request.phase = .locking ∧
      engine.lockHeld = false ∧
      ((∃ collector, engine.collectors = some collector ∧
          after = engine.join r request collector.ready) ∨
        ∃ refresh, engine.collectors = none ∧
          spawnPlugin setup.crates setup.config setup.id = some refresh ∧
          after = (engine.spawn refresh).join r request ⟨engine.loops.length⟩) := by
  obtain ⟨request, found, rest⟩ := Option.bind_eq_some_iff.mp taken
  refine ⟨request, found, ?_⟩
  split at rest
  · rename_i at_
    split at rest
    · cases rest
    · rename_i free
      obtain ⟨guard, _, rest⟩ := Option.bind_eq_some_iff.mp rest
      refine ⟨at_, by simpa using free, ?_⟩
      split at rest
      · rename_i collector active
        cases rest
        exact .inl ⟨collector, active, rfl⟩
      · rename_i inactive
        obtain ⟨refresh, built, rest⟩ := Option.bind_eq_some_iff.mp rest
        cases rest
        exact .inr ⟨refresh, inactive, built, rfl⟩
  · cases rest

theorem Engine.recheck_cases (taken : engine.recheck setup l = some after) :
    ∃ loop idleTimeout, engine.loops[l]? = some loop ∧ loop.phase = .rechecking ∧
      setup.config.idleTimeoutFor setup.id.asStr = some idleTimeout ∧
      ((idleTimeout ≤ engine.idleFor ∧
          after = ({ engine with collectors := none } : Engine).setLoop l
            { loop with phase := .stopped }) ∨
        (¬ idleTimeout ≤ engine.idleFor ∧
          after = engine.setLoop l { loop with phase := .collecting })) := by
  obtain ⟨loop, found, rest⟩ := Option.bind_eq_some_iff.mp taken
  obtain ⟨idleTimeout, timed, rest⟩ := Option.bind_eq_some_iff.mp rest
  refine ⟨loop, idleTimeout, found, ?_⟩
  split at rest
  · rename_i at_
    refine ⟨at_, timed, ?_⟩
    split at rest
    · rename_i unrequested
      cases rest
      exact .inl ⟨unrequested, rfl⟩
    · rename_i requested
      cases rest
      exact .inr ⟨requested, rfl⟩
  · cases rest

theorem Engine.idleCheck_cases (taken : engine.idleCheck setup l = some after) :
    ∃ loop wakesAt idleTimeout, engine.loops[l]? = some loop ∧ loop.phase = .sleeping wakesAt ∧
      wakesAt ≤ engine.now ∧ setup.config.idleTimeoutFor setup.id.asStr = some idleTimeout ∧
      after = engine.setLoop l
        { loop with phase := if idleTimeout ≤ engine.idleFor then .locking else .collecting } := by
  obtain ⟨loop, found, rest⟩ := Option.bind_eq_some_iff.mp taken
  obtain ⟨idleTimeout, timed, rest⟩ := Option.bind_eq_some_iff.mp rest
  split at rest
  · rename_i wakesAt at_
    split at rest
    · rename_i woken
      cases rest
      exact ⟨loop, wakesAt, idleTimeout, found, at_, woken, timed, rfl⟩
    · cases rest
  · cases rest

theorem Engine.observe_cases [NumberText] (taken : engine.observe setup l nowSys = some after) :
    ∃ loop value out, engine.loops[l]? = some loop ∧ loop.phase = .observing value ∧
      engine.alerts.observe setup.config
        { plugin := setup.id, now := engine.now, nowSys, payload := value } = some out ∧
      after = (engine.record out).setLoop l
        { loop with phase := .publishing out.value, observed := loop.observed + 1 } := by
  obtain ⟨loop, found, rest⟩ := Option.bind_eq_some_iff.mp taken
  split at rest
  · rename_i value at_
    obtain ⟨out, called, rest⟩ := Option.bind_eq_some_iff.mp rest
    cases rest
    exact ⟨loop, value, out, found, at_, called, rfl⟩
  · cases rest

theorem Engine.poll_moves (taken : engine.poll setup r = some after) :
    ∃ request moved, engine.requests[r]? = some request ∧
      RequestMove setup engine request moved ∧ after = engine.setRequest r moved := by
  obtain ⟨request, found, rest⟩ := Option.bind_eq_some_iff.mp taken
  refine ⟨request, ?_⟩
  split at rest
  · rename_i ready since at_
    obtain ⟨loop, channel, rest⟩ := Option.bind_eq_some_iff.mp rest
    obtain ⟨guard, guarded, rest⟩ := Option.bind_eq_some_iff.mp rest
    split at rest
    · rename_i notified
      cases rest
      exact ⟨_, found, .ready at_ channel notified, rfl⟩
    · rename_i silent
      split at rest
      · rename_i gone
        cases rest
        exact ⟨_, found, .senderDropped at_ channel (by simpa using silent) gone, rfl⟩
      · split at rest
        · rename_i late
          cases rest
          exact ⟨_, found, .elapsed at_ guarded late, rfl⟩
        · cases rest
  · cases rest

/-- Every step of the engine is one of the moves. -/
theorem Engine.step_moves [NumberText] {action : Action}
    (taken : engine.step setup action = some after) : Moves setup engine action after := by
  cases action with
  | tick elapsed =>
      obtain ⟨clock, reached, rfl⟩ := Option.map_eq_some_iff.mp taken
      exact .ticked (Nat.le.intro (Clock.advance?_eq_some.mp reached).symm)
  | arrive =>
      cases enabled : setup.config.pluginEnabled setup.id.asStr with
      | false =>
          rw [step, ensurePlugin_disabled enabled] at taken
          cases taken
          exact .refused enabled
      | true =>
          rw [step, ensurePlugin_enabled enabled] at taken
          cases taken
          exact .touched enabled
  | lookup r =>
      obtain ⟨request, found, at_, free, joined | spawned⟩ := lookup_cases taken
      · obtain ⟨collector, active, rfl⟩ := joined
        exact .joined found at_ free active
      · obtain ⟨refresh, inactive, built, rfl⟩ := spawned
        exact .spawned found at_ free inactive built
  | poll r =>
      obtain ⟨request, moved, found, move, rfl⟩ := poll_moves taken
      exact .request found move
  | read r =>
      obtain ⟨request, found, rest⟩ := Option.bind_eq_some_iff.mp taken
      split at rest
      · rename_i at_
        cases rest
        exact .request found (.read at_)
      · cases rest
  | drop r =>
      obtain ⟨request, found, rest⟩ := Option.bind_eq_some_iff.mp taken
      split at rest
      iterate 3
        rename_i at_
        cases rest
        exact .request found (.dropped (by simp [at_]))
      cases rest
  | collect l value =>
      obtain ⟨loop, found, rest⟩ := Option.bind_eq_some_iff.mp taken
      obtain ⟨_, _, rest⟩ := Option.bind_eq_some_iff.mp rest
      split at rest
      · rename_i at_
        cases rest
        exact .loop found (.collected at_)
      · cases rest
  | observe l nowSys =>
      obtain ⟨loop, value, out, found, at_, called, rfl⟩ := observe_cases taken
      exact .observed found at_ called
  | publish l =>
      obtain ⟨loop, found, rest⟩ := Option.bind_eq_some_iff.mp taken
      split at rest
      · rename_i at_
        cases rest
        exact .published found at_
      · cases rest
  | setReady l =>
      obtain ⟨loop, found, rest⟩ := Option.bind_eq_some_iff.mp taken
      split at rest
      · rename_i at_
        cases rest
        exact .loop found (.notified at_)
      · cases rest
  | sleep l =>
      obtain ⟨loop, found, rest⟩ := Option.bind_eq_some_iff.mp taken
      split at rest
      · rename_i at_
        cases rest
        exact .loop found (.slept at_)
      · cases rest
  | idleCheck l =>
      obtain ⟨loop, wakesAt, idleTimeout, found, at_, woken, timed, rfl⟩ := idleCheck_cases taken
      refine .loop found ?_
      split
      · rename_i unrequested
        exact .idle at_ woken timed unrequested
      · rename_i requested
        exact .busy at_ woken timed requested
  | lock l =>
      obtain ⟨loop, found, rest⟩ := Option.bind_eq_some_iff.mp taken
      split at rest
      · rename_i at_
        split at rest
        · cases rest
        · rename_i free
          cases rest
          exact .loop found (.locked at_ (by simpa using free))
      · cases rest
  | recheck l =>
      obtain ⟨loop, idleTimeout, found, at_, timed, stopped | kept⟩ := recheck_cases taken
      · obtain ⟨unrequested, rfl⟩ := stopped
        exact .removed found at_ timed unrequested
      · obtain ⟨requested, rfl⟩ := kept
        exact .loop found (.kept at_ timed requested)
  | observeOther id nowSys value =>
      simp only [step, observeOther] at taken
      split at taken
      · cases taken
      · rename_i other
        obtain ⟨out, called, rest⟩ := Option.bind_eq_some_iff.mp taken
        cases rest
        exact .observedOther other called

end Inversion

end GlancesRs
