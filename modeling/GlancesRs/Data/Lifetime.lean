import GlancesRs.Data.Debounce
import Mathlib.Data.List.Chain

namespace GlancesRs.Data.Debouncer

/-! What a debouncer puts out over rounds that keep its state: changes that
chain, and at most one initial one, at the head. -/

variable {L T V : Type} {ripe : T → T → Bool} {rest : L}
variable {state : Debouncer L T} {level start middle final : L} {now : T} {value : V}
variable {samples : List (L × V)} {round : Round L T V} {rounds : List (Round L T V)}
variable {change : Change L} {changes later : List (Change L × V)}

/-- Each change leaves the level the one before it entered. -/
def Chained (start : L) : List (Change L × V) → L → Prop
  | [], final => final = start
  | change :: later, final =>
      change.1.previous = start ∧ change.1.new ≠ start ∧ Chained change.1.new later final

theorem Chained.append (first : Chained start changes middle) (second : Chained middle later final) :
    Chained start (changes ++ later) final := by
  induction changes generalizing start with
  | nil =>
      cases first
      exact second
  | cons change changes ih =>
      obtain ⟨previous, different, linked⟩ := first
      exact ⟨previous, different, ih linked⟩

theorem Chained.head (chained : Chained start changes final) :
    ∀ change ∈ changes.head?, change.1.previous = start := by
  cases changes with
  | nil => simp
  | cons change changes => simpa using chained.1

theorem Chained.isChain (chained : Chained start changes final) :
    changes.IsChain fun earlier later => later.1.previous = earlier.1.new := by
  induction changes generalizing start with
  | nil => exact .nil
  | cons change changes ih =>
      obtain ⟨_, _, linked⟩ := chained
      exact List.isChain_cons.mpr ⟨linked.head, ih linked⟩

theorem Chained.differs (chained : Chained start changes final) :
    ∀ change ∈ changes, change.1.new ≠ change.1.previous := by
  induction changes generalizing start with
  | nil => simp
  | cons change changes ih =>
      obtain ⟨previous, different, linked⟩ := chained
      exact List.forall_mem_cons.mpr ⟨previous ▸ different, ih linked⟩

/-- A level other than the initial one has been committed. -/
def Rooted (rest : L) (state : Debouncer L T) : Prop :=
  state.committed ≠ rest → state.settled = true

theorem rooted_initial : ({ committed := rest } : Debouncer L T).Rooted rest :=
  fun away => absurd rfl away

theorem enter_settled (remembered : round.forget = false) :
    (state.enter rest round).settled = state.settled := by
  rw [enter]
  rw [remembered]
  cases round.reset <;> rfl

theorem Rooted.enter (rooted : state.Rooted rest) : (state.enter rest round).Rooted rest := by
  rw [Debouncer.enter]
  split
  · exact rooted_initial
  · split
    · exact rooted
    · exact rooted

variable [DecidableEq L]

theorem observe_some (committed : (state.observe ripe level now).2 = some change) :
    change = { previous := state.committed, new := level, initial := !state.settled } ∧
      level ≠ state.committed ∧
      (state.observe ripe level now).1 = { committed := level, settled := true } := by
  obtain ⟨_, observed⟩ | ⟨different, _, observed⟩ | ⟨_, _, observed⟩ :=
    observe_cases ripe state level now
  · rw [observed] at committed
    cases committed
  · rw [observed] at committed ⊢
    cases committed
    exact ⟨rfl, different, rfl⟩
  · rw [observed] at committed
    cases committed

theorem observe_settled_of_some (committed : (state.observe ripe level now).2 = some change) :
    (state.observe ripe level now).1.settled = true := by
  rw [(observe_some committed).2.2]

theorem observe_settled (settled : state.settled = true) :
    (state.observe ripe level now).1.settled = true := by
  obtain ⟨_, observed⟩ | ⟨_, _, observed⟩ | ⟨_, _, observed⟩ := observe_cases ripe state level now
  · rw [observed]
  · rw [observed]
  · rw [observed]
    exact settled

theorem Rooted.observe (rooted : state.Rooted rest) :
    (state.observe ripe level now).1.Rooted rest := by
  obtain ⟨_, observed⟩ | ⟨_, _, observed⟩ | ⟨_, _, observed⟩ := observe_cases ripe state level now
  · rw [observed]
    exact fun _ => rfl
  · rw [observed]
    exact fun _ => rfl
  · rw [observed]
    exact rooted

/-- The initial level confirms itself. -/
theorem Rooted.observe_rest (rooted : state.Rooted rest) :
    (state.observe ripe rest now).1.settled = true := by
  by_cases atRest : state.committed = rest
  · rw [Debouncer.observe, if_pos atRest.symm]
  · exact observe_settled (rooted atRest)

theorem observe_chained :
    Chained state.committed ((state.observe ripe level now).2.toList.map (·, value))
      (state.observe ripe level now).1.committed := by
  cases output : (state.observe ripe level now).2 with
  | none => exact observe_committed output
  | some change =>
      obtain ⟨rfl, different, next⟩ := observe_some output
      rw [next]
      exact ⟨rfl, different, rfl⟩

theorem observeAll_chained :
    Chained state.committed (state.observeAll ripe now samples).2
      (state.observeAll ripe now samples).1.committed := by
  induction samples generalizing state with
  | nil => rfl
  | cons sample samples ih => exact observe_chained.append ih

theorem step_chained (remembered : round.forget = false) :
    Chained state.committed (state.step ripe rest round).2 (state.step ripe rest round).1.committed := by
  have entered : (state.enter rest round).committed = state.committed := enter_committed remembered
  rw [← entered]
  exact observeAll_chained

theorem run_chained (remembered : ∀ round ∈ rounds, round.forget = false) :
    Chained state.committed (state.run ripe rest rounds).2.flatten
      (state.run ripe rest rounds).1.committed := by
  induction rounds generalizing state with
  | nil => rfl
  | cons round rounds ih =>
      rw [List.forall_mem_cons] at remembered
      exact (step_chained remembered.1).append (ih remembered.2)

theorem Rooted.observeAll (rooted : state.Rooted rest) :
    (state.observeAll ripe now samples).1.Rooted rest := by
  induction samples generalizing state with
  | nil => exact rooted
  | cons sample samples ih => exact ih rooted.observe

theorem Rooted.step (rooted : state.Rooted rest) : (state.step ripe rest round).1.Rooted rest :=
  rooted.enter.observeAll

theorem Rooted.run (rooted : state.Rooted rest) : (state.run ripe rest rounds).1.Rooted rest := by
  induction rounds generalizing state with
  | nil => exact rooted
  | cons round rounds ih => exact ih rooted.step

/-- A change is the output of the first sample or of a later one. -/
theorem mem_observeAll_cons {change : Change L × V}
    (member : change ∈ (state.observeAll ripe now ((level, value) :: samples)).2) :
    change = ({ previous := state.committed, new := level, initial := !state.settled }, value) ∨
      change ∈ ((state.observe ripe level now).1.observeAll ripe now samples).2 := by
  rcases List.mem_append.mp member with first | later
  · obtain ⟨own, output, rfl⟩ := List.mem_map.mp first
    obtain ⟨rfl, _⟩ := observe_some (Option.mem_toList.mp output)
    exact .inl rfl
  · exact .inr later

theorem observeAll_late (settled : state.settled = true) :
    (state.observeAll ripe now samples).1.settled = true ∧
      ∀ change ∈ (state.observeAll ripe now samples).2, change.1.initial = false := by
  induction samples generalizing state with
  | nil => exact ⟨settled, by simp⟩
  | cons sample samples ih =>
      obtain ⟨level, value⟩ := sample
      obtain ⟨last, quiet⟩ := ih (observe_settled settled)
      refine ⟨last, fun change member => ?_⟩
      rcases mem_observeAll_cons member with rfl | later
      · simp [settled]
      · exact quiet change later

theorem observeAll_settles (rooted : state.Rooted rest)
    (shown : ∃ sample ∈ samples, sample.1 = rest) :
    (state.observeAll ripe now samples).1.settled = true := by
  induction samples generalizing state with
  | nil => simp at shown
  | cons sample samples ih =>
      obtain ⟨level, value⟩ := sample
      obtain ⟨sample, member, atRest⟩ := shown
      rcases List.mem_cons.mp member with rfl | later
      · cases atRest
        exact (observeAll_late rooted.observe_rest).1
      · exact ih rooted.observe ⟨sample, later, atRest⟩

theorem observeAll_settled_of_output (loud : (state.observeAll ripe now samples).2 ≠ []) :
    (state.observeAll ripe now samples).1.settled = true := by
  induction samples generalizing state with
  | nil => exact absurd rfl loud
  | cons sample samples ih =>
      obtain ⟨level, value⟩ := sample
      cases output : (state.observe ripe level now).2 with
      | none => exact ih (by simpa [output] using loud)
      | some change =>
          exact (observeAll_late (observe_settled_of_some output)).1

/-- An initial change is the output of a sample that no sample at the initial
level came before. -/
theorem observeAll_initial {change : Change L × V} (rooted : state.Rooted rest)
    (member : change ∈ (state.observeAll ripe now samples).2) (initial : change.1.initial = true) :
    state.settled = false ∧ ∃ front back, samples = front ++ (change.1.new, change.2) :: back ∧
      ∀ sample ∈ front, sample.1 ≠ rest := by
  induction samples generalizing state with
  | nil => cases member
  | cons sample samples ih =>
      obtain ⟨level, value⟩ := sample
      rcases mem_observeAll_cons member with rfl | later
      · exact ⟨by simpa using initial, [], samples, rfl, by simp⟩
      · obtain ⟨unsettled, front, back, rfl, before⟩ := ih rooted.observe later
        refine ⟨?_, (level, value) :: front, back, rfl, ?_⟩
        · by_contra settled
          rw [observe_settled (by simpa using settled)] at unsettled
          cases unsettled
        · refine List.forall_mem_cons.mpr ⟨fun atRest => ?_, before⟩
          cases atRest
          rw [rooted.observe_rest] at unsettled
          cases unsettled

theorem observeAll_tail :
    ∀ change ∈ (state.observeAll ripe now samples).2.tail, change.1.initial = false := by
  induction samples generalizing state with
  | nil => simp
  | cons sample samples ih =>
      obtain ⟨level, value⟩ := sample
      cases output : (state.observe ripe level now).2 with
      | none => simpa [output] using ih
      | some change =>
          simpa [output] using (observeAll_late (observe_settled_of_some output)).2

theorem step_late (remembered : round.forget = false) (settled : state.settled = true) :
    (state.step ripe rest round).1.settled = true ∧
      ∀ change ∈ (state.step ripe rest round).2, change.1.initial = false :=
  observeAll_late ((enter_settled remembered).trans settled)

theorem run_late (remembered : ∀ round ∈ rounds, round.forget = false)
    (settled : state.settled = true) :
    (state.run ripe rest rounds).1.settled = true ∧
      ∀ change ∈ (state.run ripe rest rounds).2.flatten, change.1.initial = false := by
  induction rounds generalizing state with
  | nil => exact ⟨settled, by simp [run]⟩
  | cons round rounds ih =>
      rw [List.forall_mem_cons] at remembered
      obtain ⟨kept, quiet⟩ := step_late remembered.1 settled
      obtain ⟨last, later⟩ := ih remembered.2 kept
      exact ⟨last, List.forall_mem_append.mpr ⟨quiet, later⟩⟩

/-- Only the head of what remembered rounds put out can be initial. -/
theorem run_tail (remembered : ∀ round ∈ rounds, round.forget = false) :
    ∀ change ∈ (state.run ripe rest rounds).2.flatten.tail, change.1.initial = false := by
  induction rounds generalizing state with
  | nil => simp [run]
  | cons round rounds ih =>
      rw [List.forall_mem_cons] at remembered
      intro change member
      simp only [run, List.flatten_cons] at member
      cases output : (state.step ripe rest round).2 with
      | nil =>
          rw [output, List.nil_append] at member
          exact ih remembered.2 change member
      | cons first later =>
          have settled : (state.step ripe rest round).1.settled = true :=
            observeAll_settled_of_output (by rw [← step, output]; simp)
          rw [output, List.cons_append, List.tail_cons] at member
          rcases List.mem_append.mp member with own | other
          · have tail : ∀ change ∈ ((state.enter rest round).observeAll ripe round.now
                round.samples).2.tail, change.1.initial = false := observeAll_tail
            rw [← step, output] at tail
            exact tail change own
          · exact (run_late remembered.2 settled).2 change other

theorem run_settles (remembered : ∀ round ∈ rounds, round.forget = false)
    (rooted : state.Rooted rest)
    (shown : ∃ round ∈ rounds, ∃ sample ∈ round.samples, sample.1 = rest) :
    (state.run ripe rest rounds).1.settled = true := by
  induction rounds generalizing state with
  | nil => simp at shown
  | cons round rounds ih =>
      rw [List.forall_mem_cons] at remembered
      obtain ⟨own, member, sampled⟩ := shown
      rcases List.mem_cons.mp member with rfl | later
      · exact (run_late remembered.2 (observeAll_settles rooted.enter sampled)).1
      · exact ih remembered.2 rooted.step ⟨own, later, sampled⟩

/-- An initial change after remembered rounds: none of them showed the initial
level, nor did its own round before it. -/
theorem run_initial {change : Change L × V} (remembered : ∀ round ∈ rounds, round.forget = false)
    (kept : round.forget = false) (rooted : state.Rooted rest)
    (member : change ∈ ((state.run ripe rest rounds).1.step ripe rest round).2)
    (initial : change.1.initial = true) :
    (∀ earlier ∈ rounds, ∀ sample ∈ earlier.samples, sample.1 ≠ rest) ∧
      ∃ front back, round.samples = front ++ (change.1.new, change.2) :: back ∧
        ∀ sample ∈ front, sample.1 ≠ rest := by
  obtain ⟨unsettled, fronted⟩ := observeAll_initial rooted.run.enter member initial
  rw [enter_settled kept] at unsettled
  refine ⟨fun earlier before sample sampled atRest => ?_, fronted⟩
  rw [run_settles remembered rooted ⟨earlier, before, sample, sampled, atRest⟩] at unsettled
  cases unsettled

theorem observeAll_length :
    (state.observeAll ripe now samples).2.length ≤ samples.length := by
  induction samples generalizing state with
  | nil => exact Nat.le_refl 0
  | cons sample samples ih =>
      obtain ⟨level, value⟩ := sample
      have one : (state.observe ripe level now).2.toList.length ≤ 1 := by
        cases (state.observe ripe level now).2 <;> simp
      have more := @ih (state.observe ripe level now).1
      simp only [observeAll_cons, List.length_append, List.length_map, List.length_cons]
      omega

theorem observeAll_shown {change : Change L × V}
    (member : change ∈ (state.observeAll ripe now samples).2) :
    ∃ sample ∈ samples, sample.1 = change.1.new := by
  induction samples generalizing state with
  | nil => cases member
  | cons sample samples ih =>
      obtain ⟨level, value⟩ := sample
      rcases mem_observeAll_cons member with rfl | later
      · exact ⟨_, List.mem_cons_self, rfl⟩
      · obtain ⟨sample, inside, shows⟩ := ih later
        exact ⟨sample, List.mem_cons_of_mem _ inside, shows⟩

end GlancesRs.Data.Debouncer
