import GlancesRs.Data.Lifetime
import Mathlib.Order.Basic

namespace GlancesRs.Data.Debouncer

/-! When a debouncer commits, said by its rounds alone: rounds of one sample at
most, at times that never go back, where what has elapsed since one instant has
elapsed since all earlier ones. -/

variable {L T V : Type} {ripe : T → T → Bool} {rest : L} {state : Debouncer L T}
variable {level initial : L} {now bound : T} {samples : List (L × V)}
variable {round opening : Round L T V} {rounds earlier between : List (Round L T V)}

/-- A chain ends at the level of its last change. -/
theorem Chained.final_eq {start final : L} {changes : List (Change L × V)}
    (chained : Chained start changes final) :
    final = (changes.getLast?.map fun change => change.1.new).getD start := by
  induction changes generalizing start with
  | nil => exact chained
  | cons change changes ih =>
      obtain ⟨_, _, linked⟩ := chained
      rw [ih linked, List.getLast?_cons]
      cases changes.getLast? <;> rfl

/-- Committed, or on its way since `bound` at the latest. -/
def Held [LE T] (level : L) (bound : T) (state : Debouncer L T) : Prop :=
  state.committed = level ∨ ∃ opened, opened ≤ bound ∧ state.pending = some (level, opened)

structure Timed [LE T] (rounds : List (Round L T V)) : Prop where
  alone : ∀ round ∈ rounds, round.samples.length ≤ 1
  ordered : rounds.Pairwise fun first second => first.now ≤ second.now

theorem Timed.init [LE T] (timed : Timed (rounds ++ [round])) : Timed rounds where
  alone other member := timed.alone other (List.mem_append_left _ member)
  ordered := (List.pairwise_append.mp timed.ordered).1

theorem Timed.le_last [LE T] (timed : Timed (rounds ++ [round])) :
    ∀ other ∈ rounds, other.now ≤ round.now :=
  fun other member => (List.pairwise_append.mp timed.ordered).2.2 other member round (by simp)

variable [DecidableEq L]

theorem since_of_pending {opened : T}
    (pending : state.pending = some (level, opened)) : state.since level now = opened := by
  simp [since, pending]

theorem observe_held [LE T] (held : state.Held level bound) :
    (state.observe ripe level now).1.Held level bound := by
  obtain ⟨same, observed⟩ | ⟨_, _, observed⟩ | ⟨different, _, observed⟩ :=
    observe_cases ripe state level now
  · rw [observed]
    exact .inl same.symm
  · rw [observed]
    exact .inl rfl
  · rw [observed]
    obtain ⟨opened, early, pending⟩ := held.resolve_left (Ne.symm different)
    exact .inr ⟨opened, early, by rw [since_of_pending pending]⟩

theorem observeAll_held [LE T] (held : state.Held level bound)
    (uniform : ∀ sample ∈ samples, sample.1 = level) :
    (state.observeAll ripe now samples).1.Held level bound := by
  induction samples generalizing state with
  | nil => exact held
  | cons sample samples ih =>
      obtain ⟨shown, value⟩ := sample
      rw [List.forall_mem_cons] at uniform
      obtain ⟨rfl, tail⟩ := uniform
      exact ih (observe_held held) tail

theorem observe_opens [Preorder T]
    (early : ∀ opened, state.pending = some (level, opened) → opened ≤ now) :
    (state.observe ripe level now).1.Held level now := by
  obtain ⟨same, observed⟩ | ⟨_, _, observed⟩ | ⟨_, _, observed⟩ := observe_cases ripe state level now
  · rw [observed]
    exact .inl same.symm
  · rw [observed]
    exact .inl rfl
  · rw [observed]
    refine .inr ⟨_, ?_, rfl⟩
    rcases since_pending state level now with pending | fresh
    · exact early _ pending
    · exact fresh.le

/-- A window was opened by one of the rounds. -/
theorem opened_le [LE T] (timed : Timed (rounds ++ [round])) {opened : T}
    (pending : (({ committed := initial } : Debouncer L T).run ripe rest rounds).1.pending =
      some (level, opened)) : opened ≤ round.now := by
  obtain ⟨earlier, opening, later, rfl, rfl, _⟩ := run_pending pending
  exact timed.le_last opening (by simp)

omit [DecidableEq L] in
/-- The sample of a round of one. -/
theorem single_of_sample (alone : samples.length ≤ 1)
    (shown : ∃ sample ∈ samples, sample.1 = level) : ∃ value, samples = [(level, value)] := by
  obtain ⟨⟨_, value⟩, member, rfl⟩ := shown
  obtain ⟨only, rfl⟩ := List.length_eq_one_iff.mp (Nat.le_antisymm alone (List.length_pos_of_mem member))
  obtain rfl := List.mem_singleton.mp member
  exact ⟨value, rfl⟩

/-- A level shown and not broken since is committed or on its way. -/
theorem run_held [Preorder T] (timed : Timed (earlier ++ opening :: between))
    (shown : ∃ sample ∈ opening.samples, sample.1 = level) (unbroken : Unbroken level between) :
    (({ committed := initial } : Debouncer L T).run ripe rest
      (earlier ++ opening :: between)).1.Held level opening.now := by
  induction between using List.reverseRecOn with
  | nil =>
      obtain ⟨value, single⟩ := single_of_sample (timed.alone opening (by simp)) shown
      rw [run_snoc, step, single]
      refine observe_opens fun opened entered => ?_
      obtain ⟨_, _, pending⟩ := enter_pending entered
      exact opened_le timed pending
  | append_singleton between last ih =>
      rw [← List.cons_append, ← List.append_assoc] at timed ⊢
      obtain ⟨former, latest⟩ := List.forall_mem_append.mp unbroken
      obtain ⟨unreset, remembered, uniform⟩ := List.forall_mem_singleton.mp latest
      rw [run_snoc, step, enter_eq remembered unreset]
      exact observeAll_held (ih timed.init former) uniform

/-- The window a round's sample finds goes back to a round that showed its level,
unbroken from there on. -/
theorem exists_opening {value : V} (single : round.samples = [(level, value)]) :
    ∃ earlier opening between, rounds ++ [round] = earlier ++ opening :: between ∧
      opening.now = ((({ committed := initial } : Debouncer L T).run ripe rest rounds).1.enter rest
        round).since level round.now ∧
      (∃ sample ∈ opening.samples, sample.1 = level) ∧ Unbroken level between := by
  have shown : ∃ sample ∈ round.samples, sample.1 = level := ⟨(level, value), by simp [single], rfl⟩
  rcases since_pending ((({ committed := initial } : Debouncer L T).run ripe rest rounds).1.enter rest
    round) level round.now with entered | fresh
  · obtain ⟨remembered, unreset, pending⟩ := enter_pending entered
    obtain ⟨earlier, opening, later, split, atOpening, sampled, unbroken⟩ := run_pending pending
    refine ⟨earlier, opening, later ++ [round], by simp [split], atOpening, sampled, ?_⟩
    refine List.forall_mem_append.mpr ⟨unbroken, List.forall_mem_singleton.mpr ?_⟩
    exact ⟨unreset, remembered, by simp [single]⟩
  · exact ⟨rounds, round, [], rfl, fresh.symm, shown, by simp [Unbroken]⟩

/-- No window opens later than the first round of its stretch. -/
theorem since_le_opening [Preorder T] (timed : Timed (rounds ++ [round]))
    (different : level ≠ ((({ committed := initial } : Debouncer L T).run ripe rest rounds).1.enter
      rest round).committed)
    (split : rounds ++ [round] = earlier ++ opening :: between)
    (shown : ∃ sample ∈ opening.samples, sample.1 = level) (unbroken : Unbroken level between) :
    ((({ committed := initial } : Debouncer L T).run ripe rest rounds).1.enter rest round).since level
      round.now ≤ opening.now := by
  rcases List.eq_nil_or_concat between with rfl | ⟨former, last, rfl⟩
  · obtain ⟨rfl, same⟩ := List.append_inj' split rfl
    obtain rfl : round = opening := by simpa using same
    rcases since_pending ((({ committed := initial } : Debouncer L T).run ripe rest rounds).1.enter
      rest round) level round.now with entered | fresh
    · obtain ⟨_, _, pending⟩ := enter_pending entered
      exact opened_le timed pending
    · exact fresh.le
  · rw [List.concat_eq_append, ← List.cons_append, ← List.append_assoc] at split
    obtain ⟨rfl, same⟩ := List.append_inj' split rfl
    obtain rfl : round = last := by simpa using same
    rw [List.concat_eq_append] at unbroken
    obtain ⟨inner, latest⟩ := List.forall_mem_append.mp unbroken
    obtain ⟨unreset, remembered, _⟩ := List.forall_mem_singleton.mp latest
    rw [enter_eq remembered unreset] at different ⊢
    obtain ⟨opened, early, pending⟩ :=
      (run_held timed.init shown inner).resolve_left (Ne.symm different)
    rw [since_of_pending pending]
    exact early

theorem observe_new_iff :
    (∃ change ∈ (state.observe ripe level now).2, change.new = level) ↔
      level ≠ state.committed ∧ ripe (state.since level now) now = true := by
  obtain ⟨same, observed⟩ | ⟨different, elapsed, observed⟩ | ⟨_, waiting, observed⟩ :=
    observe_cases ripe state level now
  · subst same
    simp [observed]
  · simp [observed, different, elapsed]
  · simp [observed, waiting]

theorem step_single {value : V} (single : round.samples = [(level, value)]) {shown : L} :
    (∃ change ∈ (state.step ripe rest round).2, change.1.new = shown) ↔
      ∃ change ∈ ((state.enter rest round).observe ripe level round.now).2, change.new = shown := by
  rw [step, single]
  simp

/-- A round commits a level exactly if it shows it, another one is committed, and
the window since some round that showed it, unbroken from there on, has elapsed. -/
theorem step_new_iff [Preorder T]
    (older : ∀ first second now, first ≤ second → ripe second now = true → ripe first now = true)
    (timed : Timed (rounds ++ [round])) :
    (∃ change ∈ ((({ committed := initial } : Debouncer L T).run ripe rest rounds).1.step ripe rest
        round).2, change.1.new = level) ↔
      (∃ sample ∈ round.samples, sample.1 = level) ∧
      level ≠ ((({ committed := initial } : Debouncer L T).run ripe rest rounds).1.enter rest
        round).committed ∧
      ∃ earlier opening between, rounds ++ [round] = earlier ++ opening :: between ∧
        ripe opening.now round.now = true ∧ (∃ sample ∈ opening.samples, sample.1 = level) ∧
        Unbroken level between := by
  have alone := timed.alone round (by simp)
  by_cases shown : ∃ sample ∈ round.samples, sample.1 = level
  · obtain ⟨value, single⟩ := single_of_sample alone shown
    rw [step_single single, observe_new_iff]
    refine ⟨fun due => ⟨shown, due.1, ?_⟩, fun conditions => ⟨conditions.2.1, ?_⟩⟩
    · obtain ⟨earlier, opening, between, split, atOpening, sampled, unbroken⟩ :=
        @exists_opening _ _ _ ripe rest level initial round rounds _ _ single
      exact ⟨earlier, opening, between, split, atOpening ▸ due.2, sampled, unbroken⟩
    · obtain ⟨_, different, earlier, opening, between, split, due, sampled, unbroken⟩ := conditions
      exact older _ _ _ (since_le_opening timed different split sampled unbroken) due
  · refine ⟨fun committed => absurd ?_ shown, fun conditions => absurd conditions.1 shown⟩
    obtain ⟨change, member, rfl⟩ := committed
    exact observeAll_shown member

end GlancesRs.Data.Debouncer
