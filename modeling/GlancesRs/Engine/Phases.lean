import GlancesRs.Engine.Registry

namespace GlancesRs

open Data

/-! Which actions take a loop into a phase: what it observes is what it collected,
and it re-checks under the lock it took. -/

variable {setup : Setup} {engine after : Engine} {action : Action} {l k : ℕ} {loop moved last : Loop}

def Action.isCollect : Action → Bool
  | .collect _ _ => true
  | _ => false

/-- What is known of a loop that has just come into a phase. -/
def Action.Enters (action : Action) (l : ℕ) : LoopPhase → Prop
  | .observing value => action = .collect l value
  | .rechecking => action = .lock l
  | _ => True

theorem Engine.loops_ensurePlugin : (engine.ensurePlugin setup).loops = engine.loops := by
  cases enabled : setup.config.pluginEnabled setup.id.asStr with
  | false => rw [ensurePlugin_disabled enabled]
  | true => rw [ensurePlugin_enabled enabled]

theorem Engine.loops_drop {r : ℕ} (dropped : engine.drop r = some after) :
    after.loops = engine.loops := by
  obtain ⟨request, _, rest⟩ := Option.bind_eq_some_iff.mp dropped
  split at rest <;> cases rest <;> rfl

/-- A loop of the state after `l` has moved is the moved one or a former one. -/
theorem Engine.setLoop_enters (found : engine.loops[l]? = some loop)
    (known : (engine.setLoop l moved).loops[k]? = some last) (enters : action.Enters l moved.phase) :
    engine.loops[k]? = some last ∨ action.Enters k last.phase := by
  rw [loops_setLoop found] at known
  split at known
  · rename_i same
    cases known
    subst same
    exact .inr enters
  · exact .inl known

theorem Engine.step_phase [NumberText] (taken : engine.step setup action = some after)
    (known : after.loops[k]? = some last) :
    engine.loops[k]? = some last ∨ action.Enters k last.phase := by
  cases action with
  | tick elapsed =>
      obtain ⟨clock, _, rfl⟩ := Option.map_eq_some_iff.mp taken
      exact .inl known
  | arrive =>
      cases taken
      rw [loops_ensurePlugin] at known
      exact .inl known
  | lookup r =>
      obtain ⟨request, _, _, _, ⟨collector, _, rfl⟩ | ⟨refresh, _, _, rfl⟩⟩ := lookup_cases taken
      · exact .inl known
      · have spawned : (engine.spawn refresh).loops[k]? = some last := known
        rw [loops_spawn] at spawned
        split at spawned
        · cases spawned
          exact .inr trivial
        · exact .inl spawned
  | poll r =>
      obtain ⟨_, _, _, _, rfl⟩ := poll_moves taken
      exact .inl known
  | read r =>
      obtain ⟨request, _, rest⟩ := Option.bind_eq_some_iff.mp taken
      split at rest <;> cases rest
      exact .inl known
  | drop r =>
      rw [loops_drop taken] at known
      exact .inl known
  | collect l value =>
      obtain ⟨loop, found, rest⟩ := Option.bind_eq_some_iff.mp taken
      obtain ⟨_, _, rest⟩ := Option.bind_eq_some_iff.mp rest
      split at rest <;> cases rest
      exact setLoop_enters found known rfl
  | observe l nowSys =>
      obtain ⟨loop, value, out, found, _, _, rfl⟩ := observe_cases taken
      have recorded : (engine.record out).loops[l]? = some loop := found
      exact setLoop_enters recorded known trivial
  | publish l =>
      obtain ⟨loop, found, rest⟩ := Option.bind_eq_some_iff.mp taken
      split at rest
      · rename_i body _
        cases rest
        have stored : ({ engine with store := some ⟨body, l⟩ } : Engine).loops[l]? = some loop := found
        exact setLoop_enters stored known trivial
      · cases rest
  | setReady l | sleep l =>
      obtain ⟨loop, found, rest⟩ := Option.bind_eq_some_iff.mp taken
      split at rest <;> cases rest
      exact setLoop_enters found known trivial
  | idleCheck l =>
      obtain ⟨loop, _, _, found, _, _, _, rfl⟩ := idleCheck_cases taken
      refine setLoop_enters found known ?_
      split <;> trivial
  | lock l =>
      obtain ⟨loop, found, rest⟩ := Option.bind_eq_some_iff.mp taken
      split at rest
      · split at rest <;> cases rest
        exact setLoop_enters found known rfl
      · cases rest
  | recheck l =>
      obtain ⟨loop, _, found, _, _, ⟨_, rfl⟩ | ⟨_, rfl⟩⟩ := recheck_cases taken
      · have emptied : ({ engine with collectors := none } : Engine).loops[l]? = some loop := found
        exact setLoop_enters emptied known trivial
      · exact setLoop_enters found known trivial
  | observeOther id nowSys value =>
      rw [step, observeOther] at taken
      split at taken
      · cases taken
      · obtain ⟨out, _, rest⟩ := Option.bind_eq_some_iff.mp taken
        cases rest
        exact .inl known

end GlancesRs
