import GlancesRs.Alerts.RawLevels
import GlancesRs.Engine.Phases
import GlancesRs.Engine.Race

namespace GlancesRs

open Data

/-! What a plugin's tasks hand from one to the next: the payload collected, the body
published and the snapshot a request finds keep whatever is true of all payloads
collected, as far as observing them keeps it. -/

variable {setup : Setup} {engine after : Engine} {action : Action}
variable {raw served : Json → Prop}

/-- What a loop holds between two of its steps. -/
def Loop.Carries (raw served : Json → Prop) (loop : Loop) : Prop :=
  match loop.phase with
  | .observing value => raw value
  | .publishing body => served body
  | _ => True

def PluginRequest.Carries (served : Json → Prop) (request : PluginRequest) : Prop :=
  match request.phase with
  | .done (.found snapshot) => served snapshot.body
  | _ => True

structure Engine.Carries (raw served : Json → Prop) (engine : Engine) : Prop where
  loops : ∀ loop ∈ engine.loops, loop.Carries raw served
  stored : ∀ snapshot ∈ engine.store, served snapshot.body
  requests : ∀ request ∈ engine.requests, request.Carries served

theorem Engine.Carries.mono {more : Json → Prop} (wider : ∀ body, served body → more body)
    (carries : engine.Carries raw served) : engine.Carries raw more where
  loops loop member := by
    have held := carries.loops loop member
    rw [Loop.Carries] at held ⊢
    split at held
    · exact held
    · exact wider _ held
    · trivial
  stored snapshot found := wider _ (carries.stored snapshot found)
  requests request member := by
    have held := carries.requests request member
    rw [PluginRequest.Carries] at held ⊢
    split at held
    · exact wider _ held
    · trivial

theorem Engine.loops_setLoop_all {kept : Loop → Prop} {l : ℕ} {moved : Loop}
    (holds : ∀ loop ∈ engine.loops, kept loop) (holdsMoved : kept moved) :
    ∀ loop ∈ (engine.setLoop l moved).loops, kept loop := by
  intro loop member
  rcases List.mem_or_eq_of_mem_set member with former | rfl
  · exact holds loop former
  · exact holdsMoved

theorem RequestMove.carries {request moved : PluginRequest}
    (move : RequestMove setup engine request moved)
    (stored : ∀ snapshot ∈ engine.store, served snapshot.body) : moved.Carries served := by
  cases move with
  | ready | senderDropped | elapsed | dropped => trivial
  | read at_ =>
      simp only [PluginRequest.Carries, Engine.snapshot]
      cases found : engine.store with
      | none => trivial
      | some snapshot => exact stored snapshot found

theorem LoopMove.carries {loop moved : Loop} (move : LoopMove setup engine loop moved)
    (entered : ∀ value, moved.phase = .observing value → raw value) : moved.Carries raw served := by
  cases move with
  | collected => exact entered _ rfl
  | notified | slept | busy | idle | locked | kept => trivial

variable [NumberText]

/-- One step hands on only what was collected, and what observing makes of it. -/
theorem Engine.step_carries (taken : engine.step setup action = some after)
    (collected : ∀ l value, action = .collect l value → raw value)
    (observed : ∀ l nowSys loop value out, action = .observe l nowSys →
      engine.loops[l]? = some loop → loop.phase = .observing value → raw value →
      engine.alerts.observe setup.config
        { plugin := setup.id, now := engine.now, nowSys, payload := value } = some out →
      served out.value)
    (carries : engine.Carries raw served) : after.Carries raw served := by
  obtain ⟨loops, stored, requests⟩ := carries
  cases step_moves taken with
  | ticked | observedOther => exact ⟨loops, stored, requests⟩
  | refused | touched =>
      exact ⟨loops, stored, List.forall_mem_append.mpr ⟨requests, List.forall_mem_singleton.mpr trivial⟩⟩
  | joined found at_ => exact ⟨loops, stored, requests_setRequest requests trivial⟩
  | spawned found at_ =>
      exact ⟨List.forall_mem_append.mpr ⟨loops, List.forall_mem_singleton.mpr trivial⟩, stored,
        requests_setRequest requests trivial⟩
  | request found move => exact ⟨loops, stored, requests_setRequest requests (move.carries stored)⟩
  | @loop _ l loop moved found move =>
      refine ⟨loops_setLoop_all loops (move.carries fun value entered => ?_), stored, requests⟩
      -- A loop that starts to observe is one that has just collected.
      have known := (@loops_setLoop engine l l loop moved found).trans (if_pos rfl)
      rcases step_phase taken known with former | enters
      · have held := loops moved (List.mem_of_getElem? former)
        rwa [Loop.Carries, entered] at held
      · rw [entered] at enters
        exact collected l value enters
  | @observed l loop value nowSys out found at_ called =>
      refine ⟨loops_setLoop_all loops ?_, stored, requests⟩
      have held := loops loop (List.mem_of_getElem? found)
      rw [Loop.Carries, at_] at held
      exact observed l nowSys loop value out rfl found at_ held called
  | @published l loop body found at_ =>
      have held := loops loop (List.mem_of_getElem? found)
      rw [Loop.Carries, at_] at held
      refine ⟨@loops_setLoop_all { engine with store := _ } _ _ _ loops trivial, ?_, requests⟩
      intro snapshot new
      cases new
      exact held
  | removed found at_ => exact ⟨loops_setLoop_all loops trivial, stored, requests⟩

end GlancesRs
