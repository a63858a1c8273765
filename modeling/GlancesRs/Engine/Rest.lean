import GlancesRs.Engine.Phases
import GlancesRs.Engine.Race
import Mathlib.Algebra.BigOperators.Group.List.Basic

namespace GlancesRs

open Data

/-! A plugin nobody asks for comes to rest: every step of its loop is one towards the
end of it, and it collects at most once more. -/

variable {setup : Setup} {engine after : Engine} {action : Action} {l : ℕ} {loop moved : Loop}
variable {idleTimeout : Duration}

/-- The steps a loop takes from a phase to its end, once it is idle. -/
def LoopPhase.toRest : LoopPhase → ℕ
  | .collecting => 8
  | .observing _ => 7
  | .publishing _ => 6
  | .notifying => 5
  | .resting => 4
  | .sleeping _ => 3
  | .locking => 2
  | .rechecking => 1
  | .stopped => 0

def LoopPhase.toCollect : LoopPhase → ℕ
  | .collecting => 1
  | _ => 0

def Action.isLoop : Action → Bool
  | .collect _ _ | .observe _ _ | .publish _ | .setReady _ | .sleep _ | .idleCheck _ | .lock _
  | .recheck _ => true
  | _ => false

/-- One step of a loop that finds itself idle. -/
inductive Action.Winds : Action → LoopPhase → LoopPhase → Prop where
  | collect {l : ℕ} {value : Json} : Winds (.collect l value) .collecting (.observing value)
  | observe {l : ℕ} {nowSys : SystemTime} {value body : Json} :
      Winds (.observe l nowSys) (.observing value) (.publishing body)
  | publish {l : ℕ} {body : Json} : Winds (.publish l) (.publishing body) .notifying
  | setReady {l : ℕ} : Winds (.setReady l) .notifying .resting
  | sleep {l wakesAt : ℕ} : Winds (.sleep l) .resting (.sleeping wakesAt)
  | idleCheck {l wakesAt : ℕ} : Winds (.idleCheck l) (.sleeping wakesAt) .locking
  | lock {l : ℕ} : Winds (.lock l) .locking .rechecking
  | recheck {l : ℕ} : Winds (.recheck l) .rechecking .stopped

/-- Nobody asks for the plugin: the idle timeout has passed, and every request so far
has been through the registry. -/
structure Engine.Unasked (setup : Setup) (engine : Engine) : Prop where
  idle : ∃ idleTimeout, setup.config.idleTimeoutFor setup.id.asStr = some idleTimeout ∧
    idleTimeout ≤ engine.idleFor
  looked : ∀ request ∈ engine.requests, request.phase ≠ .locking

def Engine.weigh (weight : LoopPhase → ℕ) (engine : Engine) : ℕ :=
  (engine.loops.map fun loop => weight loop.phase).sum

section Weights

variable {weight : LoopPhase → ℕ}

theorem Engine.weigh_set (found : engine.loops[l]? = some loop)
    (stepped : after.loops = engine.loops.set l moved) :
    after.weigh weight + weight loop.phase = engine.weigh weight + weight moved.phase := by
  obtain ⟨inside, at_⟩ := List.getElem?_eq_some_iff.mp found
  have former : engine.loops.set l loop = engine.loops := at_ ▸ List.set_getElem_self inside
  have splits : ∀ last : Loop, ((engine.loops.set l last).map fun loop => weight loop.phase).sum =
      ((engine.loops.take l).map fun loop => weight loop.phase).sum + weight last.phase +
        ((engine.loops.drop (l + 1)).map fun loop => weight loop.phase).sum := by
    intro last
    rw [List.set_eq_take_append_cons_drop, if_pos inside]
    simp [Nat.add_assoc]
  have whole := splits loop
  rw [former] at whole
  rw [weigh, weigh, stepped, splits, whole]
  omega

theorem Action.Winds.toRest {before later : LoopPhase} (winds : action.Winds before later) :
    later.toRest + 1 = before.toRest := by
  cases winds <;> rfl

theorem Action.Winds.toCollect {before later : LoopPhase} (winds : action.Winds before later) :
    later.toCollect + (if action.isCollect then 1 else 0) = before.toCollect := by
  cases winds <;> rfl

end Weights

section Steps

theorem Engine.Unasked.later (unasked : engine.Unasked setup) (same : after.lastRequest = engine.lastRequest)
    (passed : engine.now ≤ after.now) (looked : ∀ request ∈ after.requests, request.phase ≠ .locking) :
    after.Unasked setup := by
  obtain ⟨idleTimeout, timed, idle⟩ := unasked.idle
  have grown : engine.idleFor ≤ after.idleFor := by
    rw [idleFor, idleFor, same]
    exact sinceMillis_mono passed _
  refine ⟨⟨idleTimeout, timed, ?_⟩, looked⟩
  rw [Duration.le_def] at idle grown ⊢
  exact idle.trans grown

variable [NumberText]

/-- A step of a loop that is idle, when it is one, winds the loop down. -/
theorem Engine.step_winds (unasked : engine.Unasked setup)
    (taken : engine.step setup action = some after) (own : action.isLoop = true) :
    ∃ l loop moved, engine.loops[l]? = some loop ∧ after.loops = engine.loops.set l moved ∧
      action.Winds loop.phase moved.phase ∧ after.requests = engine.requests ∧
      after.lastRequest = engine.lastRequest ∧ after.clock = engine.clock := by
  obtain ⟨idleTimeout, timed, idle⟩ := unasked.idle
  cases action with
  | collect l value =>
      obtain ⟨loop, found, rest⟩ := Option.bind_eq_some_iff.mp taken
      obtain ⟨_, _, rest⟩ := Option.bind_eq_some_iff.mp rest
      split at rest <;> cases rest
      rename_i at_
      exact ⟨l, loop, _, found, rfl, at_ ▸ .collect, rfl, rfl, rfl⟩
  | observe l nowSys =>
      obtain ⟨loop, value, out, found, at_, _, rfl⟩ := observe_cases taken
      exact ⟨l, loop, _, found, rfl, at_ ▸ .observe, rfl, rfl, rfl⟩
  | publish l =>
      obtain ⟨loop, found, rest⟩ := Option.bind_eq_some_iff.mp taken
      split at rest <;> cases rest
      rename_i at_
      exact ⟨l, loop, _, found, rfl, at_ ▸ .publish, rfl, rfl, rfl⟩
  | setReady l =>
      obtain ⟨loop, found, rest⟩ := Option.bind_eq_some_iff.mp taken
      split at rest <;> cases rest
      rename_i at_
      exact ⟨l, loop, _, found, rfl, at_ ▸ .setReady, rfl, rfl, rfl⟩
  | sleep l =>
      obtain ⟨loop, found, rest⟩ := Option.bind_eq_some_iff.mp taken
      split at rest <;> cases rest
      rename_i at_
      exact ⟨l, loop, _, found, rfl, at_ ▸ .sleep, rfl, rfl, rfl⟩
  | idleCheck l =>
      obtain ⟨loop, wakesAt, timeout, found, at_, _, timed', rfl⟩ := idleCheck_cases taken
      rw [timed] at timed'
      cases timed'
      exact ⟨l, loop, _, found, rfl, by rw [if_pos idle, at_]; exact .idleCheck, rfl, rfl, rfl⟩
  | lock l =>
      obtain ⟨loop, found, rest⟩ := Option.bind_eq_some_iff.mp taken
      split at rest
      · rename_i at_
        split at rest <;> cases rest
        exact ⟨l, loop, _, found, rfl, at_ ▸ .lock, rfl, rfl, rfl⟩
      · cases rest
  | recheck l =>
      obtain ⟨loop, timeout, found, at_, timed', ⟨_, rfl⟩ | ⟨requested, _⟩⟩ := recheck_cases taken
      · exact ⟨l, loop, _, found, rfl, at_ ▸ .recheck, rfl, rfl, rfl⟩
      · rw [timed] at timed'
        cases timed'
        exact absurd idle requested
  | _ => cases own

/-- Any other step but an arrival leaves the loops alone. -/
theorem Engine.step_around (unasked : engine.Unasked setup)
    (taken : engine.step setup action = some after) (other : action.isLoop = false)
    (served : action ≠ .arrive) :
    after.loops = engine.loops ∧ (∀ request ∈ after.requests, request.phase ≠ .locking) ∧
      after.lastRequest = engine.lastRequest ∧ engine.now ≤ after.now := by
  have looked := unasked.looked
  have moved_ne : ∀ {request moved : PluginRequest}, RequestMove setup engine request moved →
      moved.phase ≠ .locking := by
    intro request moved move
    cases move <;> simp
  cases action with
  | tick elapsed =>
      obtain ⟨clock, later, rfl⟩ := Option.map_eq_some_iff.mp taken
      exact ⟨rfl, looked, rfl, Nat.le.intro (Clock.advance?_eq_some.mp later).symm⟩
  | arrive => exact absurd rfl served
  | lookup r =>
      obtain ⟨request, found, at_, _⟩ := lookup_cases taken
      exact absurd at_ (looked request (List.mem_of_getElem? found))
  | poll r =>
      obtain ⟨_, _, _, move, rfl⟩ := poll_moves taken
      exact ⟨rfl, requests_setRequest looked (moved_ne move), rfl, le_rfl⟩
  | read r | drop r =>
      obtain ⟨request, _, rest⟩ := Option.bind_eq_some_iff.mp taken
      split at rest <;> cases rest <;> exact ⟨rfl, requests_setRequest looked (by simp), rfl, le_rfl⟩
  | observeOther id nowSys value =>
      rw [step, observeOther] at taken
      split at taken
      · cases taken
      · obtain ⟨out, _, rest⟩ := Option.bind_eq_some_iff.mp taken
        cases rest
        exact ⟨rfl, looked, rfl, le_rfl⟩
  | _ => cases other

/-- One step of a plugin nobody asks for: it stays so, and its loop spends the steps
it has left. -/
theorem Engine.step_rests (unasked : engine.Unasked setup)
    (taken : engine.step setup action = some after) (served : action ≠ .arrive) :
    after.Unasked setup ∧ after.loops.length = engine.loops.length ∧
      after.weigh LoopPhase.toRest + (if action.isLoop then 1 else 0) ≤ engine.weigh LoopPhase.toRest ∧
      after.weigh LoopPhase.toCollect + (if action.isCollect then 1 else 0) ≤
        engine.weigh LoopPhase.toCollect := by
  cases own : action.isLoop with
  | true =>
      obtain ⟨l, loop, moved, found, stepped, winds, requests, last, clock⟩ :=
        step_winds unasked taken own
      refine ⟨unasked.later last (congrArg Clock.nanos clock).ge (requests ▸ unasked.looked),
        by rw [stepped, List.length_set], ?_, ?_⟩
      · have weighed := @weigh_set _ _ l loop moved LoopPhase.toRest found stepped
        have shorter := winds.toRest
        simp only [if_true]
        omega
      · have weighed := @weigh_set _ _ l loop moved LoopPhase.toCollect found stepped
        have spent := winds.toCollect
        omega
  | false =>
      obtain ⟨loops, looked, last, passed⟩ := step_around unasked taken own served
      have uncollected : action.isCollect = false := by
        cases action with
        | collect => cases own
        | _ => rfl
      refine ⟨unasked.later last passed looked, congrArg List.length loops, ?_, ?_⟩ <;> simp [weigh, loops, uncollected]

theorem Moves.requests_grow (moves : Moves setup engine action after) :
    engine.requests.length ≤ after.requests.length := by
  cases moves with
  | refused | touched => simp
  | _ => simp [Engine.join, Engine.setRequest, Engine.spawn, Engine.setLoop, Engine.record]

theorem Engine.requests_arrive (taken : engine.step setup .arrive = some after) :
    after.requests.length = engine.requests.length + 1 := by
  cases taken
  cases enabled : setup.config.pluginEnabled setup.id.asStr with
  | false => simp [ensurePlugin_disabled enabled]
  | true => simp [ensurePlugin_enabled enabled]

/-- While no request arrives, a plugin nobody asks for stays so and its loops get no
further from their end. -/
theorem Engine.run_rests {actions : List Action} {weight : LoopPhase → ℕ}
    (weighs : weight = LoopPhase.toRest ∨ weight = LoopPhase.toCollect) (unasked : engine.Unasked setup)
    (ran : (engineSystem setup).run engine actions = some after)
    (same : after.requests.length = engine.requests.length) :
    (after.Unasked setup ∧ after.loops.length = engine.loops.length) ∧
      after.weigh weight ≤ engine.weigh weight := by
  have spent := @TransitionSystem.run_measure _ _ (engineSystem setup)
    (fun later => later.Unasked setup ∧ later.loops.length = engine.loops.length) engine after actions (fun engine => engine.requests.length) (fun engine => engine.weigh weight)
    (fun _ => 0) (fun _ _ _ taken => (step_moves taken).requests_grow)
    (fun before action next kept taken same => ?_) ⟨unasked, rfl⟩ ran same
  · exact ⟨spent.1, (Nat.le_add_right _ _).trans spent.2⟩
  · have served : action ≠ .arrive := by
      rintro rfl
      have grown := requests_arrive taken
      omega
    obtain ⟨still, loops, rest, collect⟩ := step_rests kept.1 taken served
    refine ⟨⟨still, loops.trans kept.2⟩, ?_⟩
    rcases weighs with rfl | rfl <;> omega

/-- Every loop sleeps for its refresh period at most. -/
def Engine.WakesSoon (engine : Engine) : Prop :=
  ∀ loop ∈ engine.loops, ∀ wakesAt, loop.phase = .sleeping wakesAt →
    wakesAt ≤ engine.now + loop.refresh.nanos

omit [NumberText] in
theorem Engine.WakesSoon.congr (soon : engine.WakesSoon) (loops : after.loops = engine.loops)
    (clock : after.clock = engine.clock) : after.WakesSoon := by
  rw [WakesSoon, now, loops, clock]
  exact soon

theorem Moves.wakesSoon (moves : Moves setup engine action after) (soon : engine.WakesSoon) :
    after.WakesSoon := by
  have kept : ∀ {l : ℕ} {moved : Loop}, (∀ wakesAt, moved.phase = .sleeping wakesAt →
      wakesAt ≤ engine.now + moved.refresh.nanos) → ∀ loop ∈ (engine.setLoop l moved).loops,
      ∀ wakesAt, loop.phase = .sleeping wakesAt → wakesAt ≤ engine.now + loop.refresh.nanos := by
    intro l moved wakes loop member
    rcases List.mem_or_eq_of_mem_set member with former | rfl
    · exact soon loop former
    · exact wakes
  cases moves with
  | ticked later =>
      exact fun loop member wakesAt at_ => (soon loop member wakesAt at_).trans (Nat.add_le_add_right later _)
  | refused | touched | joined | request | observedOther => exact soon.congr rfl rfl
  | spawned =>
      refine List.forall_mem_append.mpr ⟨soon, List.forall_mem_singleton.mpr ?_⟩
      simp
  | loop found move =>
      refine kept fun wakesAt at_ => ?_
      cases move with
      | slept =>
          cases at_
          exact le_rfl
      | _ => cases at_
  | observed | published | removed => exact kept (by simp)

theorem wakesSoon_of_reachable (reachable : (engineSystem setup).Reachable engine) : engine.WakesSoon := by
  refine reachable.invariant ?_ fun before action after soon taken => (Engine.step_moves taken).wakesSoon soon
  simp [engineSystem, Engine.WakesSoon]

end Steps

end GlancesRs
