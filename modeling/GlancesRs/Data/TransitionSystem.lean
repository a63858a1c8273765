import Mathlib.Algebra.GroupWithZero.Nat
import Mathlib.Data.List.Basic

namespace GlancesRs.Data

universe u v

/-! Executable transition systems. A label that is not enabled in a state, or
whose execution aborts, has no successor; everything else is deterministic, so
all nondeterminism (interleaving, inputs, clocks) lives in the label list. -/

structure TransitionSystem (σ : Type u) (α : Type v) where
  init : σ
  step : σ → α → Option σ

namespace TransitionSystem

variable {σ : Type u} {α : Type v} (system : TransitionSystem σ α)
variable {kept : σ → Prop} {before middle after : σ} {labels first second : List α}

def run (before : σ) : List α → Option σ
  | [] => some before
  | label :: rest => (system.step before label).bind fun next => run next rest

def Reachable (state : σ) : Prop :=
  ∃ labels, system.run system.init labels = some state

/-- `label` takes `before` to `after` somewhere along the schedule `labels`
started in `start`. -/
def StepOf (start : σ) (labels : List α) (before : σ) (label : α) (after : σ) : Prop :=
  ∃ earlier later, labels = earlier ++ label :: later ∧
    system.run start earlier = some before ∧ system.step before label = some after

@[simp] theorem run_nil (before : σ) : system.run before [] = some before := rfl

@[simp] theorem run_cons (before : σ) (label : α) (rest : List α) :
    system.run before (label :: rest) =
      (system.step before label).bind fun next => system.run next rest := rfl

theorem run_append (before : σ) (first second : List α) :
    system.run before (first ++ second) =
      (system.run before first).bind fun middle => system.run middle second := by
  induction first generalizing before with
  | nil => rfl
  | cons label rest ih =>
      cases taken : system.step before label with
      | none => simp [taken]
      | some next => simpa [taken] using ih next

variable {system}

theorem run_trans (reached : system.run before first = some middle)
    (continued : system.run middle second = some after) :
    system.run before (first ++ second) = some after := by
  rw [run_append, reached]
  exact continued

theorem run_of_step {label : α} (taken : system.step before label = some after) :
    system.run before [label] = some after := by
  simp [taken]

theorem Reachable.initial : system.Reachable system.init := ⟨[], rfl⟩

theorem Reachable.run (reachable : system.Reachable before)
    (ran : system.run before labels = some after) : system.Reachable after := by
  obtain ⟨earlier, reached⟩ := reachable
  exact ⟨earlier ++ labels, run_trans reached ran⟩

theorem Reachable.step {label : α} (reachable : system.Reachable before)
    (taken : system.step before label = some after) : system.Reachable after :=
  reachable.run (run_of_step taken)

theorem run_invariant_of_labels
    (preserved : ∀ label ∈ labels, ∀ before after, kept before →
      system.step before label = some after → kept after)
    (holds : kept before) (ran : system.run before labels = some after) :
    kept after := by
  induction labels generalizing before with
  | nil => cases ran; exact holds
  | cons label rest ih =>
      obtain ⟨next, taken, continued⟩ := Option.bind_eq_some_iff.mp ran
      exact ih (fun other member => preserved other (List.mem_cons_of_mem _ member))
        (preserved label List.mem_cons_self before next holds taken) continued

theorem run_invariant
    (preserved : ∀ before label after, kept before →
      system.step before label = some after → kept after)
    (holds : kept before) (ran : system.run before labels = some after) :
    kept after :=
  run_invariant_of_labels (fun label _ before after => preserved before label after) holds ran

/-- A stretch of a run in which `size` does not grow spends what `measure` loses. -/
theorem run_measure {size measure : σ → ℕ} {cost : α → ℕ}
    (grows : ∀ before label after, system.step before label = some after → size before ≤ size after)
    (paid : ∀ before label after, kept before → system.step before label = some after →
      size after = size before → kept after ∧ measure after + cost label ≤ measure before)
    (holds : kept before) (ran : system.run before labels = some after)
    (same : size after = size before) :
    kept after ∧ measure after + (labels.map cost).sum ≤ measure before := by
  have larger : ∀ {first last : σ} {more : List α}, system.run first more = some last →
      size first ≤ size last := by
    intro first last more reached
    exact @run_invariant _ _ _ (fun state => size first ≤ size state) _ _ _
      (fun _ _ _ smaller taken => Nat.le_trans smaller (grows _ _ _ taken)) (Nat.le_refl _) reached
  induction labels generalizing before with
  | nil =>
      cases ran
      exact ⟨holds, by simp⟩
  | cons label rest ih =>
      obtain ⟨next, taken, continued⟩ := Option.bind_eq_some_iff.mp ran
      have first := grows before label next taken
      have later := larger continued
      obtain ⟨keeps, spent⟩ := paid before label next holds taken (by omega)
      obtain ⟨ends, total⟩ := ih keeps continued (by omega)
      refine ⟨ends, ?_⟩
      rw [List.map_cons, List.sum_cons]
      omega

/-- Two systems in lockstep, as long as the labels keep them related. -/
theorem run_rel {τ : Type u} {other : TransitionSystem τ α} {related : σ → τ → Prop} {start : τ}
    (stepped : ∀ label ∈ labels, ∀ left right, related left right →
      Option.Rel related (system.step left label) (other.step right label))
    (holds : related before start) :
    Option.Rel related (system.run before labels) (other.run start labels) := by
  induction labels generalizing before start with
  | nil => exact .some holds
  | cons label rest ih =>
      have first := stepped label List.mem_cons_self before start holds
      rw [run_cons, run_cons]
      generalize system.step before label = left at first
      generalize other.step start label = right at first
      cases first with
      | none => exact .none
      | some next => exact ih (fun later member => stepped later (List.mem_cons_of_mem _ member)) next

theorem Reachable.invariant (initial : kept system.init)
    (preserved : ∀ before label after, kept before →
      system.step before label = some after → kept after)
    (reachable : system.Reachable after) : kept after := by
  obtain ⟨labels, ran⟩ := reachable
  exact run_invariant preserved initial ran

theorem Reachable.invariant_of_reachable (initial : kept system.init)
    (preserved : ∀ before label after, system.Reachable before → kept before →
      system.step before label = some after → kept after)
    (reachable : system.Reachable after) : kept after := by
  have both : system.Reachable after ∧ kept after :=
    @Reachable.invariant _ _ system (fun state => system.Reachable state ∧ kept state) after
      ⟨.initial, initial⟩
      (fun before label after holds taken =>
        ⟨holds.1.step taken, preserved before label after holds.1 holds.2 taken⟩)
      reachable
  exact both.2

theorem StepOf.reachable {label : α} (taken : system.StepOf system.init labels before label after) :
    system.Reachable before := by
  obtain ⟨earlier, _, _, reached, _⟩ := taken
  exact ⟨earlier, reached⟩

/-- A run of another system, step by step: what a step there starts from, a step
here ends in, and the two runs are related at every length. -/
theorem run_simulated {τ : Type u} {β : Type v} {other : TransitionSystem τ β}
    {related : σ → τ → Prop} {seen shown : τ} {actions : List β}
    (stepped : ∀ action ∈ actions, ∀ state seen next, related state seen →
      other.step seen action = some next →
      ∃ label after, system.step state label = some after ∧ related after next)
    (holds : related before seen) (ran : other.run seen actions = some shown) :
    ∃ labels : List α, labels.length = actions.length ∧ ∀ n, ∃ state view,
      system.run before (labels.take n) = some state ∧ other.run seen (actions.take n) = some view ∧
      related state view := by
  induction actions generalizing before seen with
  | nil => exact ⟨[], rfl, fun n => ⟨before, seen, by simp, by simp, holds⟩⟩
  | cons action rest ih =>
      obtain ⟨next, taken, continued⟩ := Option.bind_eq_some_iff.mp ran
      obtain ⟨label, middle, first, kept⟩ :=
        stepped action List.mem_cons_self before seen next holds taken
      obtain ⟨labels, length, along⟩ :=
        ih (fun later member => stepped later (List.mem_cons_of_mem _ member)) kept continued
      refine ⟨label :: labels, congrArg (· + 1) length, fun n => ?_⟩
      cases n with
      | zero => exact ⟨before, seen, rfl, rfl, holds⟩
      | succ n =>
          obtain ⟨state, view, reached, viewed, holds⟩ := along n
          refine ⟨state, view, ?_, ?_, holds⟩
          · rw [List.take_succ_cons, run_cons, first]
            exact reached
          · rw [List.take_succ_cons, run_cons, taken]
            exact viewed

section Projection

variable {τ : Type u} {β : Type v} {other : TransitionSystem τ β} {view : σ → τ}

/-- What `view` shows of a system is the other one: a step of it is a run there,
which is empty where the step does not show. -/
structure Projects (system : TransitionSystem σ α) (other : TransitionSystem τ β) (view : σ → τ) :
    Prop where
  init : view system.init = other.init
  step : ∀ before label after, system.Reachable before → system.step before label = some after →
    ∃ shown, other.run (view before) shown = some (view after)

theorem Projects.run (projects : Projects system other view) (reachable : system.Reachable before)
    (ran : system.run before labels = some after) :
    ∃ shown, other.run (view before) shown = some (view after) := by
  induction labels generalizing before with
  | nil =>
      cases ran
      exact ⟨[], rfl⟩
  | cons label rest ih =>
      obtain ⟨next, taken, continued⟩ := Option.bind_eq_some_iff.mp ran
      obtain ⟨first, started⟩ := projects.step before label next reachable taken
      obtain ⟨later, ended⟩ := ih (reachable.step taken) continued
      exact ⟨first ++ later, run_trans started ended⟩

theorem Projects.reachable (projects : Projects system other view)
    (reachable : system.Reachable after) : other.Reachable (view after) := by
  obtain ⟨labels, ran⟩ := reachable
  obtain ⟨shown, seen⟩ := projects.run .initial ran
  rw [projects.init] at seen
  exact ⟨shown, seen⟩

end Projection

end TransitionSystem

end GlancesRs.Data
