import Mathlib.Data.List.Induction

namespace GlancesRs.Data

/-! Debouncing: a level is committed once every sample since some instant has
shown it and the window between that instant and now has elapsed. Levels, time
and what rides along with a sample are arbitrary; `ripe since now` says that a
window opened at `since` has elapsed at `now`. -/

structure Debouncer (L T : Type) where
  committed : L
  /-- The level under observation and the instant its window opened. -/
  pending : Option (L × T) := none
  /-- A level has been committed, or the initial one confirmed. -/
  settled : Bool := false

structure Change (L : Type) where
  previous : L
  new : L
  initial : Bool
deriving DecidableEq

/-- One sampling round: it may first drop the open window or the whole state,
and takes any number of samples at one instant. -/
structure Round (L T V : Type) where
  now : T
  reset : Bool
  forget : Bool
  samples : List (L × V)

namespace Debouncer

variable {L T V : Type} [DecidableEq L] (ripe : T → T → Bool) (rest : L)

def since (state : Debouncer L T) (level : L) (now : T) : T :=
  match state.pending with
  | some (pending, since) => if pending = level then since else now
  | none => now

def observe (state : Debouncer L T) (level : L) (now : T) : Debouncer L T × Option (Change L) :=
  if level = state.committed then ({ state with pending := none, settled := true }, none)
  else if ripe (state.since level now) now then
    ({ committed := level, settled := true },
      some { previous := state.committed, new := level, initial := !state.settled })
  else ({ state with pending := some (level, state.since level now) }, none)

def observeAll (now : T) (state : Debouncer L T) :
    List (L × V) → Debouncer L T × List (Change L × V)
  | [] => (state, [])
  | (level, value) :: samples =>
      let next := state.observe ripe level now
      let last := observeAll now next.1 samples
      (last.1, next.2.toList.map (·, value) ++ last.2)

def enter (state : Debouncer L T) (round : Round L T V) : Debouncer L T :=
  if round.forget then { committed := rest }
  else if round.reset then { state with pending := none }
  else state

def step (state : Debouncer L T) (round : Round L T V) : Debouncer L T × List (Change L × V) :=
  (state.enter rest round).observeAll ripe round.now round.samples

def run (state : Debouncer L T) : List (Round L T V) → Debouncer L T × List (List (Change L × V))
  | [] => (state, [])
  | round :: rounds =>
      let next := state.step ripe rest round
      let last := run next.1 rounds
      (last.1, next.2 :: last.2)

variable {ripe rest} {state : Debouncer L T} {level : L} {now opened : T} {value : V}
variable {samples : List (L × V)} {round : Round L T V} {rounds : List (Round L T V)}

@[simp] theorem observeAll_nil :
    state.observeAll ripe now ([] : List (L × V)) = (state, []) := rfl

@[simp] theorem observeAll_cons : state.observeAll ripe now ((level, value) :: samples) =
    (((state.observe ripe level now).1.observeAll ripe now samples).1,
      (state.observe ripe level now).2.toList.map (·, value) ++
        ((state.observe ripe level now).1.observeAll ripe now samples).2) := rfl

theorem observeAll_append (first second : List (L × V)) :
    state.observeAll ripe now (first ++ second) =
      (((state.observeAll ripe now first).1.observeAll ripe now second).1,
        (state.observeAll ripe now first).2 ++
          ((state.observeAll ripe now first).1.observeAll ripe now second).2) := by
  induction first generalizing state with
  | nil => rfl
  | cons sample samples ih =>
      obtain ⟨level, value⟩ := sample
      simp [ih]

@[simp] theorem run_nil : state.run ripe rest ([] : List (Round L T V)) = (state, []) := rfl

theorem run_append (first second : List (Round L T V)) :
    state.run ripe rest (first ++ second) =
      (((state.run ripe rest first).1.run ripe rest second).1,
        (state.run ripe rest first).2 ++ ((state.run ripe rest first).1.run ripe rest second).2) := by
  induction first generalizing state with
  | nil => rfl
  | cons round rounds ih => simp [run, ih]

theorem run_length : (state.run ripe rest rounds).2.length = rounds.length := by
  induction rounds generalizing state with
  | nil => rfl
  | cons round rounds ih => simp [run, ih]

theorem run_snoc : (state.run ripe rest (rounds ++ [round])).1 =
    ((state.run ripe rest rounds).1.step ripe rest round).1 := by
  rw [run_append]
  rfl

omit [DecidableEq L] in
theorem enter_pending {window : L × T} (pending : (state.enter rest round).pending = some window) :
    round.forget = false ∧ round.reset = false ∧ state.pending = some window := by
  rw [enter] at pending
  split at pending
  · cases pending
  · split at pending
    · cases pending
    · simp_all

/-- The window of a level is the open one, or opens now. -/
theorem since_pending (state : Debouncer L T) (level : L) (now : T) :
    state.pending = some (level, state.since level now) ∨ state.since level now = now := by
  rw [since]
  split
  · rename_i window
    split
    · rename_i same
      exact .inl (same ▸ window)
    · exact .inr rfl
  · exact .inr rfl

/-- Everything one sample can do: confirm what is committed, commit, or wait. -/
theorem observe_cases (ripe : T → T → Bool) (state : Debouncer L T) (level : L) (now : T) :
    (level = state.committed ∧
      state.observe ripe level now = ({ state with pending := none, settled := true }, none)) ∨
    (level ≠ state.committed ∧ ripe (state.since level now) now = true ∧
      state.observe ripe level now = ({ committed := level, settled := true },
        some { previous := state.committed, new := level, initial := !state.settled })) ∨
    (level ≠ state.committed ∧ ripe (state.since level now) now = false ∧
      state.observe ripe level now =
        ({ state with pending := some (level, state.since level now) }, none)) := by
  rw [observe]
  split
  · rename_i same
    exact .inl ⟨same, rfl⟩
  · rename_i different
    split
    · rename_i elapsed
      exact .inr (.inl ⟨different, elapsed, rfl⟩)
    · rename_i unelapsed
      exact .inr (.inr ⟨different, by simpa using unelapsed, rfl⟩)

theorem observe_pending {shown : L}
    (pending : (state.observe ripe shown now).1.pending = some (level, opened)) :
    shown = level ∧ (state.pending = some (level, opened) ∨ opened = now) := by
  obtain ⟨_, observed⟩ | ⟨_, _, observed⟩ | ⟨_, _, observed⟩ := observe_cases ripe state shown now
  · rw [observed] at pending
    cases pending
  · rw [observed] at pending
    cases pending
  · rw [observed] at pending
    cases pending
    exact ⟨rfl, since_pending state _ now⟩

/-- A window left open by a round is older than the round, which then showed
its level only, or opened in the round at a sample of its level. -/
theorem observeAll_pending
    (pending : (state.observeAll ripe now samples).1.pending = some (level, opened)) :
    (state.pending = some (level, opened) ∧ ∀ sample ∈ samples, sample.1 = level) ∨
      (opened = now ∧ ∃ sample ∈ samples, sample.1 = level) := by
  induction samples generalizing state with
  | nil => exact .inl ⟨pending, by simp⟩
  | cons sample samples ih =>
      obtain ⟨shown, value⟩ := sample
      rcases ih pending with ⟨kept, uniform⟩ | ⟨atNow, sample, member, shows⟩
      · obtain ⟨same, before | atNow⟩ := observe_pending kept
        · exact .inl ⟨before, by simpa [same] using uniform⟩
        · exact .inr ⟨atNow, (shown, value), by simp, same⟩
      · exact .inr ⟨atNow, sample, List.mem_cons_of_mem _ member, shows⟩

def Unbroken (level : L) (rounds : List (Round L T V)) : Prop :=
  ∀ round ∈ rounds, round.reset = false ∧ round.forget = false ∧
    ∀ sample ∈ round.samples, sample.1 = level

/-- An open window goes back to a round that showed its level, and no round
since then showed anything else. -/
theorem run_pending {initial : L}
    (pending : (({ committed := initial } : Debouncer L T).run ripe rest rounds).1.pending =
      some (level, opened)) :
    ∃ earlier opening later, rounds = earlier ++ opening :: later ∧ opening.now = opened ∧
      (∃ sample ∈ opening.samples, sample.1 = level) ∧ Unbroken level later := by
  induction rounds using List.reverseRecOn with
  | nil => cases pending
  | append_singleton rounds last ih =>
      rw [run_snoc] at pending
      rcases observeAll_pending pending with ⟨kept, uniform⟩ | ⟨rfl, shown⟩
      · obtain ⟨remembered, unreset, before⟩ := enter_pending kept
        obtain ⟨earlier, opening, later, rfl, atOpening, shown, unbroken⟩ := ih before
        refine ⟨earlier, opening, later ++ [last], by simp, atOpening, shown, ?_⟩
        intro round member
        obtain former | rfl : round ∈ later ∨ round = last := by simpa using member
        · exact unbroken round former
        · exact ⟨unreset, remembered, uniform⟩
      · exact ⟨rounds, last, [], by simp, rfl, shown, by simp [Unbroken]⟩

def Unripe (ripe : T → T → Bool) (now : T) (state : Debouncer L T) : Prop :=
  ∀ level opened, state.pending = some (level, opened) → ripe opened now = false

/-- The first sample finds a window for its level that is due. -/
def Due (ripe : T → T → Bool) (now : T) (state : Debouncer L T) (samples : List (L × V)) : Prop :=
  ∃ level opened, samples.head?.map Prod.fst = some level ∧ level ≠ state.committed ∧
    state.pending = some (level, opened) ∧ ripe opened now = true

omit [DecidableEq L] in
theorem enter_eq (remembered : round.forget = false) (unreset : round.reset = false) :
    state.enter rest round = state := by
  simp [enter, remembered, unreset]

omit [DecidableEq L] in
theorem enter_committed (remembered : round.forget = false) :
    (state.enter rest round).committed = state.committed := by
  rw [enter]
  rw [remembered]
  cases round.reset <;> rfl

omit [DecidableEq L] in
theorem enter_due : (state.enter rest round).Due ripe now samples ↔
    round.forget = false ∧ round.reset = false ∧ state.Due ripe now samples := by
  constructor
  · intro due
    obtain ⟨level, opened, first, different, pending, elapsed⟩ := due
    obtain ⟨remembered, unreset, _⟩ := enter_pending pending
    rw [enter_eq remembered unreset] at different pending
    exact ⟨remembered, unreset, level, opened, first, different, pending, elapsed⟩
  · intro parts
    obtain ⟨remembered, unreset, due⟩ := parts
    rwa [enter_eq remembered unreset]

theorem observe_commits {shown : L} {change : Change L} (patient : ripe now now = false)
    (committed : (state.observe ripe shown now).2 = some change) :
    change.new = shown ∧ shown ≠ state.committed ∧
      ∃ opened, state.pending = some (shown, opened) ∧ ripe opened now = true := by
  obtain ⟨_, observed⟩ | ⟨different, elapsed, observed⟩ | ⟨_, _, observed⟩ :=
    observe_cases ripe state shown now
  · rw [observed] at committed
    cases committed
  · rw [observed] at committed
    cases committed
    refine ⟨rfl, different, _, ?_, elapsed⟩
    rcases since_pending state shown now with window | opens
    · exact window
    · rw [opens, patient] at elapsed
      cases elapsed
  · rw [observed] at committed
    cases committed

theorem observe_of_due {shown : L} (different : shown ≠ state.committed)
    (pending : state.pending = some (shown, opened)) (elapsed : ripe opened now = true) :
    (state.observe ripe shown now).2 =
      some { previous := state.committed, new := shown, initial := !state.settled } := by
  simp [observe, different, since, pending, elapsed]

theorem observe_unripe (shown : L) :
    (state.observe ripe shown now).1.Unripe ripe now := by
  intro level opened pending
  obtain ⟨_, observed⟩ | ⟨_, _, observed⟩ | ⟨_, unelapsed, observed⟩ :=
    observe_cases ripe state shown now
  · rw [observed] at pending
    cases pending
  · rw [observed] at pending
    cases pending
  · rw [observed] at pending
    cases pending
    exact unelapsed

theorem observeAll_of_unripe (patient : ripe now now = false) (unripe : state.Unripe ripe now) :
    (state.observeAll ripe now samples).2 = [] := by
  induction samples generalizing state with
  | nil => rfl
  | cons sample samples ih =>
      obtain ⟨shown, value⟩ := sample
      have quiet : (state.observe ripe shown now).2 = none := by
        cases committed : (state.observe ripe shown now).2 with
        | none => rfl
        | some change =>
            obtain ⟨_, _, opened, pending, elapsed⟩ := observe_commits patient committed
            simp [unripe _ _ pending] at elapsed
      simp [quiet, ih (observe_unripe shown)]

/-- Only the first sample of a round can commit. -/
theorem observeAll_first (patient : ripe now now = false) (shown : L) (value : V) :
    (state.observeAll ripe now ((shown, value) :: samples)).2 =
      (state.observe ripe shown now).2.toList.map (·, value) := by
  rw [observeAll_cons, observeAll_of_unripe patient (observe_unripe shown), List.append_nil]

/-- A round commits exactly when a window is due for its first sample. -/
theorem observeAll_commits_iff (patient : ripe now now = false) :
    (state.observeAll ripe now samples).2 ≠ [] ↔ state.Due ripe now samples := by
  cases samples with
  | nil => simp [Due]
  | cons sample samples =>
      obtain ⟨shown, value⟩ := sample
      simp only [observeAll_first patient, ne_eq, List.map_eq_nil_iff, Option.toList_eq_nil_iff]
      constructor
      · intro loud
        obtain ⟨change, committed⟩ := Option.ne_none_iff_exists'.mp loud
        obtain ⟨_, different, opened, pending, elapsed⟩ := observe_commits patient committed
        exact ⟨shown, opened, rfl, different, pending, elapsed⟩
      · intro due
        obtain ⟨level, opened, first, different, pending, elapsed⟩ := due
        obtain rfl : shown = level := by simpa using first
        simp [observe_of_due different pending elapsed]

theorem observeAll_change {change : Change L × V} (patient : ripe now now = false)
    (member : change ∈ (state.observeAll ripe now samples).2) :
    ∃ opened, state.pending = some (change.1.new, opened) ∧ ripe opened now = true ∧
      ∃ sample ∈ samples, sample.1 = change.1.new := by
  cases samples with
  | nil => cases member
  | cons sample samples =>
      obtain ⟨shown, value⟩ := sample
      simp only [observeAll_first patient, List.mem_map, Option.mem_toList] at member
      obtain ⟨committed, taken, rfl⟩ := member
      obtain ⟨rfl, _, opened, pending, elapsed⟩ := observe_commits patient taken
      exact ⟨opened, pending, elapsed, _, List.mem_cons_self, rfl⟩

/-- No change without its window: some round opened it with the new level, every
round since then showed nothing else, and the window has elapsed. -/
theorem run_change {initial : L} {change : Change L × V} (patient : ripe round.now round.now = false)
    (member : change ∈
      ((({ committed := initial } : Debouncer L T).run ripe rest rounds).1.step ripe rest round).2) :
    (∃ earlier opening later, rounds = earlier ++ opening :: later ∧
        ripe opening.now round.now = true ∧ (∃ sample ∈ opening.samples, sample.1 = change.1.new) ∧
        Unbroken change.1.new later) ∧
      round.forget = false ∧ ∃ sample ∈ round.samples, sample.1 = change.1.new := by
  obtain ⟨opened, entered, elapsed, shown⟩ := observeAll_change patient member
  obtain ⟨remembered, _, pending⟩ := enter_pending entered
  obtain ⟨earlier, opening, later, split, atOpening, sampled, unbroken⟩ := run_pending pending
  exact ⟨⟨earlier, opening, later, split, atOpening ▸ elapsed, sampled, unbroken⟩, remembered, shown⟩

theorem observe_committed {shown : L} (quiet : (state.observe ripe shown now).2 = none) :
    (state.observe ripe shown now).1.committed = state.committed := by
  obtain ⟨_, observed⟩ | ⟨_, _, observed⟩ | ⟨_, _, observed⟩ := observe_cases ripe state shown now
  · rw [observed]
  · rw [observed] at quiet
    cases quiet
  · rw [observed]

theorem observeAll_committed (quiet : (state.observeAll ripe now samples).2 = []) :
    (state.observeAll ripe now samples).1.committed = state.committed := by
  induction samples generalizing state with
  | nil => rfl
  | cons sample samples ih =>
      obtain ⟨shown, value⟩ := sample
      simp only [observeAll_cons, List.append_eq_nil_iff, List.map_eq_nil_iff,
        Option.toList_eq_nil_iff] at quiet ⊢
      rw [ih quiet.2, observe_committed quiet.1]

theorem step_commits_iff (patient : ripe round.now round.now = false) :
    (state.step ripe rest round).2 ≠ [] ↔
      round.forget = false ∧ round.reset = false ∧ state.Due ripe round.now round.samples :=
  (observeAll_commits_iff patient).trans enter_due

theorem step_committed (remembered : round.forget = false)
    (quiet : (state.step ripe rest round).2 = []) :
    (state.step ripe rest round).1.committed = state.committed :=
  (observeAll_committed quiet).trans (enter_committed remembered)

end Debouncer

end GlancesRs.Data
