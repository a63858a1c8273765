import GlancesRs.Engine.Registry

namespace GlancesRs

open Data

/-! What a request is served: the store may hold a snapshot from before the
loop slept, but a request waits for a loop that has published since. -/

variable {setup : Setup} {engine after : Engine} {l j r : ℕ} {loop moved : Loop}
variable {request movedRequest : PluginRequest}

def Engine.PublishedSince (engine : Engine) (l : ℕ) : Prop :=
  ∃ snapshot, engine.store = some snapshot ∧ l ≤ snapshot.publisher ∧
    snapshot.publisher < engine.loops.length

/-- What one loop can tell from its own cycles: it notifies after publishing,
and goes on to sleep and to stop after notifying. -/
structure Loop.Paced (loop : Loop) : Prop where
  ready : loop.ready = true → 0 < loop.published
  notifying : loop.phase = .notifying → 0 < loop.published
  rested : match loop.phase with
    | .resting | .sleeping _ | .locking | .rechecking | .stopped => loop.ready = true
    | _ => True

theorem LoopMove.paced (move : LoopMove setup engine loop moved) (paced : loop.Paced) :
    moved.Paced ∧ moved.published = loop.published := by
  obtain ⟨ready, notifying, rested⟩ := paced
  cases move with
  | collected => exact ⟨⟨ready, by simp, trivial⟩, rfl⟩
  | notified at_ => exact ⟨⟨fun _ => notifying at_, by simp, rfl⟩, rfl⟩
  | slept at_ | idle at_ | locked at_ =>
      rw [at_] at rested
      exact ⟨⟨ready, by simp, rested⟩, rfl⟩
  | busy at_ | kept at_ => exact ⟨⟨ready, by simp, trivial⟩, rfl⟩

/-- Where a request stands agrees with what it joined and what is stored. -/
def PluginRequest.Served (setup : Setup) (engine : Engine) (request : PluginRequest) : Prop :=
  match request.phase with
  | .locking | .dropped => True
  | .waiting ready _ => request.joined = some ready.channel
  | .reading => ∃ j, request.joined = some j ∧ engine.PublishedSince j
  | .done .notRegistered => setup.config.pluginEnabled setup.id.asStr = false
  | .done (.found snapshot) => ∃ j, request.joined = some j ∧ j ≤ snapshot.publisher ∧
      snapshot.publisher < engine.loops.length
  | .done .missingSnapshot | .done .senderDropped => False
  | .done (.guardElapsed waited) =>
      ∃ guard, setup.config.guardTimeout = some guard ∧ guard.nanos ≤ waited

structure Engine.Grows (before after : Engine) : Prop where
  loops : before.loops.length ≤ after.loops.length
  published : ∀ l, before.PublishedSince l → after.PublishedSince l

theorem PluginRequest.Served.grow (served : request.Served setup engine) (grows : engine.Grows after) :
    request.Served setup after := by
  rw [PluginRequest.Served] at served ⊢
  split
  all_goals simp_all only
  · obtain ⟨j, joined, published⟩ := served
    exact ⟨j, joined, grows.published j published⟩
  · obtain ⟨j, joined, since, spawned⟩ := served
    exact ⟨j, joined, since, spawned.trans_le grows.loops⟩

structure Engine.Fresh (setup : Setup) (engine : Engine) : Prop where
  publisher : ∀ snapshot, engine.store = some snapshot → snapshot.publisher < engine.loops.length
  paced : ∀ (l : ℕ) (loop : Loop), engine.loops[l]? = some loop → loop.Paced
  stored : ∀ (l : ℕ) (loop : Loop), engine.loops[l]? = some loop → 0 < loop.published →
    engine.PublishedSince l
  served : ∀ request ∈ engine.requests, request.Served setup engine

theorem Engine.Grows.congr (loops : after.loops.length = engine.loops.length)
    (store : after.store = engine.store) : engine.Grows after where
  loops := loops.ge
  published l published := by
    rw [PublishedSince]
    rw [loops, store]
    exact published

theorem Engine.Fresh.congr (fresh : engine.Fresh setup) (loops : after.loops = engine.loops)
    (store : after.store = engine.store)
    (served : ∀ request ∈ after.requests, request.Served setup engine) : after.Fresh setup := by
  have grows : engine.Grows after := .congr (congrArg List.length loops) store
  refine ⟨?_, ?_, ?_, fun request member => (served request member).grow grows⟩
  · rw [loops, store]
    exact fresh.publisher
  · rw [loops]
    exact fresh.paced
  · rw [loops]
    exact fun l loop found loud => grows.published l (fresh.stored l loop found loud)

theorem Engine.Fresh.ready (fresh : engine.Fresh setup) (found : engine.loops[l]? = some loop)
    (notified : loop.ready = true) : engine.PublishedSince l :=
  fresh.stored l loop found ((fresh.paced l loop found).ready notified)

/-- The missing snapshot and the dropped sender are never met. -/
theorem RequestMove.served (fresh : engine.Fresh setup)
    (move : RequestMove setup engine request movedRequest)
    (served : request.Served setup engine) : movedRequest.Served setup engine := by
  cases move with
  | ready at_ found notified =>
      simp only [PluginRequest.Served, at_] at served
      exact ⟨_, served, fresh.ready found notified⟩
  | senderDropped at_ found silent gone =>
      have rested := (fresh.paced _ _ found).rested
      rw [gone] at rested
      simp [silent] at rested
  | elapsed at_ guarded late => exact ⟨_, guarded, by omega⟩
  | read at_ =>
      simp only [PluginRequest.Served, at_] at served
      obtain ⟨j, joined, snapshot, stored, since, spawned⟩ := served
      simp only [Engine.snapshot, stored]
      exact ⟨j, joined, since, spawned⟩
  | dropped => trivial

theorem Engine.Fresh.setRequest (fresh : engine.Fresh setup)
    (served : movedRequest.Served setup engine) : (engine.setRequest r movedRequest).Fresh setup where
  publisher := fresh.publisher
  paced := fresh.paced
  stored := fresh.stored
  served := requests_setRequest fresh.served served

theorem Engine.Fresh.setLoop (fresh : engine.Fresh setup) (found : engine.loops[l]? = some loop)
    (paced : moved.Paced) (stored : 0 < moved.published → engine.PublishedSince l) :
    (engine.setLoop l moved).Fresh setup := by
  have grows : engine.Grows (engine.setLoop l moved) := .congr length_setLoop rfl
  refine ⟨fun snapshot stored => ?_, fun other known found' => ?_, fun other known found' loud => ?_,
    fun request member => (fresh.served request member).grow grows⟩
  · rw [length_setLoop]
    exact fresh.publisher snapshot stored
  · rw [loops_setLoop found] at found'
    split at found'
    · cases found'
      exact paced
    · exact fresh.paced other known found'
  · rw [loops_setLoop found] at found'
    split at found'
    · rename_i same
      cases found'
      exact same ▸ grows.published l (stored loud)
    · exact grows.published _ (fresh.stored other known found' loud)

theorem Engine.Fresh.spawn {refresh : Duration} (fresh : engine.Fresh setup) :
    (engine.spawn refresh).Fresh setup := by
  have longer : (engine.spawn refresh).loops.length = engine.loops.length + 1 := by
    simp [Engine.spawn]
  have grows : engine.Grows (engine.spawn refresh) := by
    refine ⟨by omega, fun l published => ?_⟩
    obtain ⟨snapshot, stored, since, spawned⟩ := published
    exact ⟨snapshot, stored, since, by omega⟩
  refine ⟨fun snapshot stored => ?_, fun other known found => ?_, fun other known found loud => ?_,
    fun request member => (fresh.served request member).grow grows⟩
  · have spawned := fresh.publisher snapshot stored
    omega
  · rw [loops_spawn] at found
    split at found
    · cases found
      exact ⟨by simp, by simp, trivial⟩
    · exact fresh.paced other known found
  · rw [loops_spawn] at found
    split at found
    · cases found
      simp at loud
    · exact grows.published _ (fresh.stored other known found loud)

/-- The publisher is the loop spawned last, so nothing stored is later. -/
theorem Engine.Fresh.publish {body : Json} (fresh : engine.Fresh setup)
    (registered : engine.Registered) (found : engine.loops[l]? = some loop)
    (at_ : loop.phase = .publishing body) :
    (({ engine with store := some { body, publisher := l } } : Engine).setLoop l
      { loop with phase := .notifying, published := loop.published + 1 }).Fresh setup := by
  have latest := registered.latest l ⟨loop, found, by simp [at_]⟩
  have current : ({ engine with store := some { body, publisher := l } } : Engine).PublishedSince l :=
    ⟨_, rfl, Nat.le_refl _, by simp; omega⟩
  have grows : engine.Grows { engine with store := some { body, publisher := l } } := by
    refine ⟨Nat.le_refl _, fun other published => ?_⟩
    obtain ⟨snapshot, _, since, spawned⟩ := published
    exact ⟨_, rfl, by simp; omega, by simp; omega⟩
  have stored : ({ engine with store := some { body, publisher := l } } : Engine).Fresh setup := by
    refine ⟨fun snapshot known => ?_, fresh.paced, fun other known found' loud => ?_,
      fun request member => (fresh.served request member).grow grows⟩
    · cases known
      simp
      omega
    · exact grows.published other (fresh.stored other known found' loud)
  obtain ⟨ready, _, _⟩ := fresh.paced l loop found
  exact stored.setLoop found ⟨fun _ => by simp, fun _ => by simp, trivial⟩ fun _ => current

section Steps

variable [NumberText] {action : Action}

theorem Moves.fresh (moves : Moves setup engine action after) (registered : engine.Registered)
    (fresh : engine.Fresh setup) : after.Fresh setup := by
  cases moves with
  | ticked | observedOther => exact fresh.congr rfl rfl fresh.served
  | refused disabled =>
      refine fresh.congr rfl rfl (List.forall_mem_append.mpr ?_)
      exact ⟨fresh.served, List.forall_mem_singleton.mpr disabled⟩
  | touched =>
      refine fresh.congr rfl rfl (List.forall_mem_append.mpr ?_)
      exact ⟨fresh.served, List.forall_mem_singleton.mpr trivial⟩
  | joined => exact fresh.setRequest rfl
  | spawned => exact fresh.spawn.setRequest rfl
  | request found move =>
      exact fresh.setRequest (move.served fresh (fresh.served _ (List.mem_of_getElem? found)))
  | loop found move =>
      obtain ⟨paced, published⟩ := move.paced (fresh.paced _ _ found)
      exact fresh.setLoop found paced fun loud => fresh.stored _ _ found (published ▸ loud)
  | @observed l loop _ _ out found at_ =>
      have recorded : (engine.record out).Fresh setup := fresh.congr rfl rfl fresh.served
      obtain ⟨ready, _, _⟩ := fresh.paced l loop found
      exact recorded.setLoop found ⟨ready, by simp, trivial⟩ (fresh.stored l loop found)
  | published found at_ => exact fresh.publish registered found at_
  | @removed l loop _ found at_ =>
      have emptied : ({ engine with collectors := none } : Engine).Fresh setup :=
        fresh.congr rfl rfl fresh.served
      obtain ⟨ready, _, rested⟩ := fresh.paced l loop found
      rw [at_] at rested
      exact emptied.setLoop found ⟨ready, by simp, rested⟩ (fresh.stored l loop found)

theorem fresh_of_reachable (reachable : (engineSystem setup).Reachable engine) :
    engine.Fresh setup := by
  refine reachable.invariant_of_reachable ?_ fun before action after reached fresh taken =>
    (Engine.step_moves taken).fresh (registered_of_reachable reached) fresh
  constructor <;> simp [engineSystem]

/-- Every body comes from the loop the request joined or a later one, every
timeout from the guard; a ready loop has a snapshot in store, a stopped one has
published. -/
theorem served_fresh (reachable : (engineSystem setup).Reachable engine) :
    (∀ request ∈ engine.requests, ∀ exit, request.phase = .done exit →
        (∀ body, exit.result = .ok body →
          ∃ snapshot j, exit = .found snapshot ∧ snapshot.body = body ∧ request.joined = some j ∧
            j ≤ snapshot.publisher ∧ snapshot.publisher < engine.loops.length) ∧
        (exit.result = .error .timeout →
          ∃ waited guard, exit = .guardElapsed waited ∧ setup.config.guardTimeout = some guard ∧
            guard.nanos ≤ waited)) ∧
      (∀ loop ∈ engine.loops, loop.ready = true → engine.store.isSome) ∧
      (∀ loop ∈ engine.loops, loop.phase = .stopped → 1 ≤ loop.published) := by
  have fresh := fresh_of_reachable reachable
  refine ⟨fun request member exit finished => ?_, fun loop member notified => ?_,
    fun loop member stopped => ?_⟩
  · have served := fresh.served request member
    rw [PluginRequest.Served, finished] at served
    cases exit with
    | notRegistered => exact ⟨by simp [Exit.result], by simp [Exit.result]⟩
    | found snapshot =>
        obtain ⟨j, joined, since, spawned⟩ := served
        refine ⟨fun body returned => ?_, by simp [Exit.result]⟩
        cases returned
        exact ⟨snapshot, j, rfl, rfl, joined, since, spawned⟩
    | missingSnapshot | senderDropped => exact served.elim
    | guardElapsed waited =>
        obtain ⟨guard, guarded, late⟩ := served
        exact ⟨by simp [Exit.result], fun _ => ⟨waited, guard, rfl, guarded, late⟩⟩
  · obtain ⟨l, found⟩ := List.mem_iff_getElem?.mp member
    obtain ⟨snapshot, stored, _⟩ := fresh.ready found notified
    simp [stored]
  · obtain ⟨l, found⟩ := List.mem_iff_getElem?.mp member
    have paced := fresh.paced l loop found
    have rested := paced.rested
    rw [stopped] at rested
    exact paced.ready rested

end Steps

def coldWake : List Action :=
  [.arrive, .lookup 0, .collect 0 (.object []), .observe 0 0, .publish 0, .setReady 0, .poll 0,
    .read 0]

theorem coldWake_served_fresh :
    ∃ engine request exit body, (@engineSystem .integers defaultMemory).run
        (@engineSystem .integers defaultMemory).init coldWake = some engine ∧
      engine.requests = [request] ∧ request.phase = .done exit ∧ exit.result = .ok body ∧
      ∃ snapshot, exit = .found snapshot ∧ snapshot.publisher = 0 := by
  have served : ((@engineSystem .integers defaultMemory).run
      (@engineSystem .integers defaultMemory).init coldWake).map (fun engine =>
        (engine.loops.length, engine.requests.map fun request =>
          match request.phase with
          | .done exit => exit.result.toOption.isSome
          | _ => false)) = some (1, [true]) := by
    decide +kernel
  obtain ⟨engine, ran, shown⟩ := Option.map_eq_some_iff.mp served
  simp only [Prod.mk.injEq, List.map_eq_cons_iff, List.map_eq_nil_iff] at shown
  obtain ⟨spawned, request, _, alone, returned, rfl⟩ := shown
  cases finished : request.phase with
  | done exit =>
      cases result : exit.result with
      | error => simp [finished, result, Except.toOption] at returned
      | ok body =>
          obtain ⟨snapshot, _, found, _, _, _, inside⟩ :=
            ((@served_fresh _ _ .integers ⟨_, ran⟩).1 request (by simp [alone]) exit finished).1 _ result
          exact ⟨engine, request, exit, body, ran, alone, finished, result, snapshot, found, by omega⟩
  | _ => simp [finished] at returned

end GlancesRs
