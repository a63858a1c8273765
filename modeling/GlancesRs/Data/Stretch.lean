import GlancesRs.Data.Debounce
import Mathlib.Data.List.Infix
import Mathlib.Data.List.ReduceOption

namespace GlancesRs.Data

/-! What a debouncer does, said without its state: a sample commits its level
when the longest stretch of that level which ends with it has lasted for the
window. -/

/-- One sample; the open window may be dropped before it. -/
structure Sample (L T : Type) where
  now : T
  level : L
  reset : Bool := false

variable {L T : Type}

/-- One level throughout, and no reset after the first sample. -/
def Stretch (samples : List (Sample L T)) : Prop :=
  ∃ first rest, samples = first :: rest ∧
    ∀ sample ∈ rest, sample.level = first.level ∧ sample.reset = false

structure LongestStretch (samples stretch : List (Sample L T)) : Prop where
  ends : stretch <:+ samples
  uniform : Stretch stretch
  longest : ∀ other, other <:+ samples → Stretch other → other.length ≤ stretch.length

section Stretches

variable {samples stretch other : List (Sample L T)} {sample last : Sample L T}

theorem Stretch.snoc (uniform : Stretch stretch) (ends : stretch.getLast? = some last)
    (same : sample.level = last.level) (kept : sample.reset = false) :
    Stretch (stretch ++ [sample]) := by
  obtain ⟨first, rest, rfl, levels⟩ := uniform
  have level : last.level = first.level := by
    rcases List.mem_cons.mp (List.mem_of_getLast? ends) with rfl | inside
    · rfl
    · exact (levels last inside).1
  refine ⟨first, rest ++ [sample], rfl, List.forall_mem_append.mpr ⟨levels, ?_⟩⟩
  exact List.forall_mem_singleton.mpr ⟨same.trans level, kept⟩

/-- The sample before the last one of a stretch continues it. -/
theorem Stretch.init (uniform : Stretch (stretch ++ [sample]))
    (ends : stretch.getLast? = some last) :
    Stretch stretch ∧ sample.level = last.level ∧ sample.reset = false := by
  obtain ⟨first, rest, split, levels⟩ := uniform
  cases stretch with
  | nil => cases ends
  | cons head tail =>
      obtain ⟨rfl, rfl⟩ := List.cons.inj split
      obtain ⟨inner, final⟩ := List.forall_mem_append.mp levels
      obtain ⟨same, kept⟩ := List.forall_mem_singleton.mp final
      refine ⟨⟨head, tail, rfl, inner⟩, ?_, kept⟩
      rcases List.mem_cons.mp (List.mem_of_getLast? ends) with rfl | inside
      · exact same
      · exact same.trans (inner last inside).1.symm

theorem LongestStretch.unique (longest : LongestStretch samples stretch)
    (longest' : LongestStretch samples other) : stretch = other := by
  have same : stretch.length = other.length :=
    Nat.le_antisymm (longest'.longest stretch longest.ends longest.uniform)
      (longest.longest other longest'.ends longest'.uniform)
  exact (List.suffix_of_suffix_length_le longest.ends longest'.ends same.le).eq_of_length same

theorem LongestStretch.single (broken : ∀ last, samples.getLast? = some last →
    sample.level ≠ last.level ∨ sample.reset = true) :
    LongestStretch (samples ++ [sample]) [sample] := by
  refine ⟨List.suffix_append _ _, ⟨sample, [], rfl, by simp⟩, fun other ends uniform => ?_⟩
  rcases List.suffix_concat_iff.mp ends with rfl | ⟨inner, rfl, within⟩
  · simp
  · cases final : inner.getLast? with
    | none => simp [List.getLast?_eq_none_iff.mp final]
    | some last =>
        obtain ⟨_, same, kept⟩ := uniform.init final
        obtain ⟨before, rfl⟩ := within
        rcases broken last (by simp [final]) with different | reset
        · exact absurd same different
        · simp [kept] at reset

theorem LongestStretch.snoc (longest : LongestStretch samples stretch)
    (ends : samples.getLast? = some last) (same : sample.level = last.level)
    (kept : sample.reset = false) : LongestStretch (samples ++ [sample]) (stretch ++ [sample]) := by
  obtain ⟨before, rfl⟩ := longest.ends
  have final : stretch.getLast? = some last := by
    obtain ⟨first, rest, rfl, _⟩ := longest.uniform
    simpa using ends
  refine ⟨⟨before, by simp⟩, longest.uniform.snoc final same kept, fun other ends uniform => ?_⟩
  rcases List.suffix_concat_iff.mp ends with rfl | ⟨inner, rfl, within⟩
  · simp
  · cases shown : inner.getLast? with
    | none => simp [List.getLast?_eq_none_iff.mp shown]
    | some _ =>
        have shorter := longest.longest inner within (uniform.init shown).1
        simpa using shorter

end Stretches

namespace Debouncer

variable [DecidableEq L] (ripe : T → T → Bool)

def advance (state : Debouncer L T) (sample : Sample L T) : Debouncer L T × Option (Change L) :=
  (if sample.reset then { state with pending := none } else state).observe ripe sample.level
    sample.now

def trace (state : Debouncer L T) : List (Sample L T) → Debouncer L T × List (Option (Change L))
  | [] => (state, [])
  | sample :: later =>
      let next := state.advance ripe sample
      let last := trace next.1 later
      (last.1, next.2 :: last.2)

/-- The level in force after these outputs: the last one committed. -/
def committedAfter (initial : L) (outputs : List (Option (Change L))) : L :=
  (outputs.reduceOption.getLast?.map Change.new).getD initial

variable {ripe} {state : Debouncer L T} {initial : L} {samples : List (Sample L T)}
variable {sample first last : Sample L T} {rest : List (Sample L T)}
variable {outputs : List (Option (Change L))} {output : Option (Change L)}

theorem trace_append (earlier later : List (Sample L T)) :
    state.trace ripe (earlier ++ later) =
      (((state.trace ripe earlier).1.trace ripe later).1,
        (state.trace ripe earlier).2 ++ ((state.trace ripe earlier).1.trace ripe later).2) := by
  induction earlier generalizing state with
  | nil => rfl
  | cons sample earlier ih => simp [trace, ih]

theorem trace_snoc : state.trace ripe (samples ++ [sample]) =
    (((state.trace ripe samples).1.advance ripe sample).1,
      (state.trace ripe samples).2 ++ [((state.trace ripe samples).1.advance ripe sample).2]) := by
  rw [trace_append]
  rfl

omit [DecidableEq L] in
theorem committedAfter_snoc :
    committedAfter initial (outputs ++ [output]) =
      (output.map Change.new).getD (committedAfter initial outputs) := by
  cases output <;> simp [committedAfter, List.reduceOption_append]

/-- What a state knows of the samples and outputs so far. -/
structure Follows (ripe : T → T → Bool) (initial : L) (samples : List (Sample L T))
    (outputs : List (Option (Change L))) (state : Debouncer L T) : Prop where
  idle : samples = [] → state.pending = none
  window : ∀ last, samples.getLast? = some last →
    (state.committed = last.level ∧ state.pending = none) ∨
      ∃ first rest, LongestStretch samples (first :: rest) ∧ state.pending = some (last.level, first.now)
  committed : state.committed = committedAfter initial outputs
  settled : state.settled = true ↔
    (∃ change, some change ∈ outputs) ∨ ∃ sample ∈ samples, sample.level = initial
  departed : state.committed ≠ initial → ∃ change, some change ∈ outputs

omit [DecidableEq L] in
theorem follows_initial : Follows ripe initial [] [] { committed := initial } where
  idle _ := rfl
  window _ ends := by cases ends
  committed := rfl
  settled := by simp
  departed away := absurd rfl away

/-- The window is as old as the longest stretch of the level. -/
theorem Follows.since (follows : Follows ripe initial samples outputs state)
    (longest : LongestStretch (samples ++ [sample]) (first :: rest))
    (different : sample.level ≠ state.committed) :
    (if sample.reset then { state with pending := none } else state).since sample.level sample.now =
      first.now := by
  have fresh (broken : ∀ last, samples.getLast? = some last →
      sample.level ≠ last.level ∨ sample.reset = true) : first.now = sample.now := by
    obtain ⟨rfl, _⟩ := List.cons.inj (longest.unique (LongestStretch.single broken))
    rfl
  cases reset : sample.reset with
  | true =>
      rw [fresh fun _ _ => .inr reset]
      rfl
  | false =>
      cases ends : samples.getLast? with
      | none =>
          rw [fresh (by simp [ends])]
          simp [Debouncer.since, follows.idle (List.getLast?_eq_none_iff.mp ends)]
      | some last =>
          rcases follows.window last ends with ⟨atRest, idle⟩ | ⟨opening, later, window, pending⟩
          · rw [fresh (by simp [ends, ← atRest, different])]
            simp [Debouncer.since, idle]
          · by_cases same : sample.level = last.level
            · obtain ⟨rfl, _⟩ := List.cons.inj (longest.unique (window.snoc ends same reset))
              simp [Debouncer.since, pending, same]
            · rw [fresh (by simp [ends, same])]
              simp [Debouncer.since, pending, Ne.symm same]

/-- One sample, by the longest stretch that ends with it. -/
theorem Follows.advance_eq (follows : Follows ripe initial samples outputs state)
    (longest : LongestStretch (samples ++ [sample]) (first :: rest)) :
    state.advance ripe sample =
      if sample.level = state.committed then ({ state with pending := none, settled := true }, none)
      else if ripe first.now sample.now then
        ({ committed := sample.level, settled := true },
          some { previous := state.committed, new := sample.level, initial := !state.settled })
      else ({ state with pending := some (sample.level, first.now) }, none) := by
  have opened := follows.since longest
  rw [advance, observe]
  cases reset : sample.reset <;> simp only [reset, if_true, if_false, Bool.false_eq_true] at opened ⊢
  · by_cases same : sample.level = state.committed
    · simp [same]
    · simp [same, opened same]
  · by_cases same : sample.level = state.committed
    · simp [same]
    · simp [same, opened same]

theorem exists_longest (samples : List (Sample L T)) (sample : Sample L T) :
    ∃ first rest, LongestStretch (samples ++ [sample]) (first :: rest) := by
  induction samples using List.reverseRecOn generalizing sample with
  | nil => exact ⟨sample, [], LongestStretch.single (by simp)⟩
  | append_singleton samples last ih =>
      by_cases broken : sample.level ≠ last.level ∨ sample.reset = true
      · exact ⟨sample, [], LongestStretch.single (by simpa using broken)⟩
      · rw [not_or, not_not, Bool.not_eq_true] at broken
        obtain ⟨first, rest, longest⟩ := ih last
        exact ⟨first, rest ++ [sample], longest.snoc (by simp) broken.1 broken.2⟩

theorem Follows.advance (follows : Follows ripe initial samples outputs state)
    (sample : Sample L T) :
    Follows ripe initial (samples ++ [sample]) (outputs ++ [(state.advance ripe sample).2])
      (state.advance ripe sample).1 := by
  obtain ⟨first, rest, longest⟩ := exists_longest samples sample
  have ends : ∀ last, (samples ++ [sample]).getLast? = some last → last = sample := by simp
  have advanced := follows.advance_eq longest
  by_cases same : sample.level = state.committed
  · rw [if_pos same] at advanced
    rw [advanced]
    refine ⟨by simp, fun last final => ?_, ?_, ?_, ?_⟩
    · obtain rfl := ends last final
      exact .inl ⟨same.symm, rfl⟩
    · simpa [committedAfter_snoc] using follows.committed
    · refine iff_of_true rfl ?_
      by_cases away : state.committed = initial
      · exact .inr ⟨sample, by simp, same.trans away⟩
      · obtain ⟨change, member⟩ := follows.departed away
        exact .inl ⟨change, by simp [member]⟩
    · intro away
      obtain ⟨change, member⟩ := follows.departed away
      exact ⟨change, by simp [member]⟩
  · rw [if_neg same] at advanced
    by_cases elapsed : ripe first.now sample.now = true
    · rw [if_pos elapsed] at advanced
      rw [advanced]
      refine ⟨by simp, fun last final => ?_, by simp [committedAfter_snoc], ?_, ?_⟩
      · obtain rfl := ends last final
        exact .inl ⟨rfl, rfl⟩
      · exact iff_of_true rfl (.inl ⟨_, List.mem_append_right _ List.mem_cons_self⟩)
      · exact fun _ => ⟨_, List.mem_append_right _ List.mem_cons_self⟩
    · rw [if_neg elapsed] at advanced
      rw [advanced]
      refine ⟨by simp, fun last final => ?_, ?_, ?_, ?_⟩
      · obtain rfl := ends last final
        exact .inr ⟨first, rest, longest, rfl⟩
      · simpa [committedAfter_snoc] using follows.committed
      · -- A sample at the initial level that does not confirm it comes after a change.
        have late : sample.level = initial → ∃ change, some change ∈ outputs :=
          fun atInitial => follows.departed fun away => same (atInitial.trans away.symm)
        rw [follows.settled]
        simp only [List.mem_append, List.mem_singleton, reduceCtorEq, or_false, or_and_right,
          exists_or, exists_eq_left, ← or_assoc]
        exact (or_iff_left_of_imp fun atInitial => .inl (late atInitial)).symm
      · intro away
        obtain ⟨change, member⟩ := follows.departed away
        exact ⟨change, by simp [member]⟩

theorem trace_follows (samples : List (Sample L T)) :
    Follows ripe initial samples
      (({ committed := initial } : Debouncer L T).trace ripe samples).2
      (({ committed := initial } : Debouncer L T).trace ripe samples).1 := by
  induction samples using List.reverseRecOn with
  | nil => exact follows_initial
  | append_singleton samples sample ih =>
      rw [trace_snoc]
      exact ih.advance sample

end Debouncer

end GlancesRs.Data
