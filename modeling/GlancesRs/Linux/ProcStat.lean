import GlancesRs.Data.Columns
import GlancesRs.Data.Decimal
import GlancesRs.Data.Folds
import GlancesRs.Data.Words
import GlancesRs.Plugins.Cpu

namespace GlancesRs

open Data

/-! `/proc/stat`: the counters of the aggregate `cpu` line, from the tokens that
parse, and of the event lines. -/

def CpuSample.zero : CpuSample :=
  { user := 0, nice := 0, system := 0, idle := 0, iowait := 0, irq := 0, softirq := 0, steal := 0,
    guest := 0, guestNice := 0, ctxt := 0, intr := 0, softirqTotal := 0 }

/-- The ten columns of a `cpu` line: user nice system idle iowait irq softirq
steal guest guest_nice, of which the first four must be there. -/
def cpuLine (s : CpuSample) (tokens : List (List Char)) : Option CpuSample := do
  let v := tokens.filterMap parseU64
  let user ← v[0]?
  let nice ← v[1]?
  let system ← v[2]?
  let idle ← v[3]?
  return { s with
    user, nice, system, idle
    iowait := v[4]?.getD 0
    irq := v[5]?.getD 0
    softirq := v[6]?.getD 0
    steal := v[7]?.getD 0
    guest := v[8]?.getD 0
    guestNice := v[9]?.getD 0 }

/-- The sample so far, and whether a `cpu` line has been seen. -/
def statLine (state : CpuSample × Bool) (line : List Char) : Option (CpuSample × Bool) :=
  match splitWhitespace line with
  | [] => some state
  | name :: tokens =>
      if name = ['c', 'p', 'u'] then (cpuLine state.1 tokens).map fun s => (s, true)
      else if name = ['c', 't', 'x', 't'] then
        some ({ state.1 with ctxt := nextU64 tokens }, state.2)
      else if name = ['i', 'n', 't', 'r'] then
        some ({ state.1 with intr := nextU64 tokens }, state.2)
      else if name = ['s', 'o', 'f', 't', 'i', 'r', 'q'] then
        some ({ state.1 with softirqTotal := nextU64 tokens }, state.2)
      else some state

def parseProcStat (content : List Char) : Option CpuSample := do
  let (s, seenCpu) ← (lines content).foldlM statLine (.zero, false)
  if seenCpu then some s else none

section Lines

/-- What follows `cpu` on an aggregate line. -/
def cpuTokens (line : List Char) : Option (List (List Char)) :=
  match splitWhitespace line with
  | name :: tokens => if name = ['c', 'p', 'u'] then some tokens else none
  | [] => none

def cpuLines (content : List Char) : List (List (List Char)) := (lines content).filterMap cpuTokens

/-- The ten jiffy fields in the order of their columns. -/
def CpuSample.jiffyFields (s : CpuSample) : List UInt64 :=
  [s.user, s.nice, s.system, s.idle, s.iowait, s.irq, s.softirq, s.steal, s.guest, s.guestNice]

def compactColumns (tokens : List (List Char)) : List UInt64 :=
  (List.range 10).map fun j => compactAt parseU64 0 tokens j

/-- Four tokens of a `cpu` line parse. -/
def Complete (tokens : List (List Char)) : Prop := 4 ≤ (tokens.filterMap parseU64).length

instance (tokens : List (List Char)) : Decidable (Complete tokens) :=
  inferInstanceAs (Decidable (4 ≤ _))

variable {s after : CpuSample} {seen : Bool} {state last : CpuSample × Bool}
variable {tokens : List (List Char)} {line content : List Char} {text : List (List Char)}

theorem cpuLine_of_complete (complete : Complete tokens) :
    ∃ after, cpuLine s tokens = some after ∧ after.jiffyFields = compactColumns tokens := by
  unfold Complete at complete
  simp only [cpuLine, compactColumns, compactAt]
  generalize tokens.filterMap parseU64 = v at *
  rcases v with _ | ⟨user, _ | ⟨nice, _ | ⟨system, _ | ⟨idle, rest⟩⟩⟩⟩
  · simp at complete
  · simp at complete
  · simp at complete
  · simp at complete
  · exact ⟨_, rfl, rfl⟩

theorem cpuLine_of_incomplete (incomplete : ¬ Complete tokens) : cpuLine s tokens = none := by
  unfold Complete at incomplete
  simp only [cpuLine]
  generalize tokens.filterMap parseU64 = v at *
  rcases v with _ | ⟨user, _ | ⟨nice, _ | ⟨system, _ | ⟨idle, rest⟩⟩⟩⟩
  · rfl
  · rfl
  · rfl
  · rfl
  · simp at incomplete

/-- A line that is no `cpu` line leaves the jiffies as they are. -/
theorem statLine_other (other : cpuTokens line = none) : ∃ after,
    statLine (s, seen) line = some (after, seen) ∧ after.jiffyFields = s.jiffyFields := by
  rw [cpuTokens] at other
  rw [statLine]
  cases words : splitWhitespace line with
  | nil => exact ⟨s, rfl, rfl⟩
  | cons name tokens =>
      rw [words] at other
      have notCpu : name ≠ ['c', 'p', 'u'] := by
        intro same
        simp [same] at other
      simp only [if_neg notCpu]
      split
      · exact ⟨_, rfl, rfl⟩
      split
      · exact ⟨_, rfl, rfl⟩
      split
      · exact ⟨_, rfl, rfl⟩
      · exact ⟨_, rfl, rfl⟩

theorem statLine_cpu (named : cpuTokens line = some tokens) :
    statLine (s, seen) line = (cpuLine s tokens).map fun after => (after, true) := by
  rw [cpuTokens] at named
  rw [statLine]
  cases words : splitWhitespace line with
  | nil => simp [words] at named
  | cons name rest =>
      simp only [words] at named
      split at named
      · rename_i isCpu
        cases named
        simp only [if_pos isCpu]
      · cases named

/-- The parser gives up exactly on a `cpu` line that is not complete. -/
theorem statLine_isSome :
    (statLine state line).isSome ↔ ∀ tokens, cpuTokens line = some tokens → Complete tokens := by
  obtain ⟨s, seen⟩ := state
  cases named : cpuTokens line with
  | none =>
      obtain ⟨after, stepped, _⟩ := @statLine_other s seen line named
      simp [stepped]
  | some tokens =>
      rw [statLine_cpu named, Option.isSome_map]
      by_cases complete : Complete tokens
      · obtain ⟨after, read, _⟩ := @cpuLine_of_complete s tokens complete
        simp [read, complete]
      · simp [cpuLine_of_incomplete complete, complete]

theorem statLine_fields (stepped : statLine (s, seen) line = some last) :
    last.1.jiffyFields = ((cpuTokens line).map compactColumns).getD s.jiffyFields ∧
      last.2 = (seen || (cpuTokens line).isSome) := by
  cases named : cpuTokens line with
  | none =>
      obtain ⟨after, same, kept⟩ := @statLine_other s seen line named
      rw [same] at stepped
      cases stepped
      simp [kept]
  | some tokens =>
      have complete : Complete tokens :=
        statLine_isSome.mp (Option.isSome_of_eq_some stepped) tokens named
      obtain ⟨after, read, columns⟩ := @cpuLine_of_complete s tokens complete
      rw [statLine_cpu named, read] at stepped
      cases stepped
      simp [columns]

/-- After any lines: the jiffies of the last `cpu` line. -/
theorem foldlM_statLine {content : List (List Char)}
    (ran : content.foldlM statLine (s, seen) = some last) :
    last.1.jiffyFields =
        ((content.filterMap cpuTokens).getLast?.map compactColumns).getD s.jiffyFields ∧
      last.2 = (seen || (content.filterMap cpuTokens).getLast?.isSome) := by
  induction content generalizing s seen with
  | nil =>
      cases ran
      simp
  | cons line content ih =>
      obtain ⟨⟨next, nextSeen⟩, stepped, rest⟩ := foldlM_cons_eq_some.mp ran
      obtain ⟨fields, found⟩ := statLine_fields stepped
      obtain ⟨laterFields, laterFound⟩ := ih rest
      rw [laterFields, laterFound]
      simp only at fields found
      rw [fields, found]
      cases named : cpuTokens line with
      | none => simp [named]
      | some tokens =>
          rw [List.filterMap_cons_some named, List.getLast?_cons]
          cases (content.filterMap cpuTokens).getLast? <;> simp

theorem foldlM_statLine_isSome :
    ((lines content).foldlM statLine state).isSome ↔ ∀ tokens ∈ cpuLines content, Complete tokens :=
  foldlM_isSome_iff fun _ _ => statLine_isSome

/-- A sample is that of the last `cpu` line, where all of them are complete. -/
theorem parseProcStat_spec (parsed : parseProcStat content = some s) :
    (∀ tokens ∈ cpuLines content, Complete tokens) ∧ ∃ tokens,
      (cpuLines content).getLast? = some tokens ∧ s.jiffyFields = compactColumns tokens := by
  rw [parseProcStat] at parsed
  obtain ⟨⟨after, seen⟩, ran, kept⟩ := Option.bind_eq_some_iff.mp parsed
  obtain ⟨fields, found⟩ := foldlM_statLine ran
  refine ⟨foldlM_statLine_isSome.mp (Option.isSome_of_eq_some ran), ?_⟩
  rw [← cpuLines] at fields found
  cases last : (cpuLines content).getLast? with
  | none => simp_all
  | some tokens =>
      simp [last] at found
      simp [found] at kept
      rw [last] at fields
      exact ⟨tokens, rfl, kept ▸ fields⟩

theorem parseProcStat_exists (completes : ∀ tokens ∈ cpuLines content, Complete tokens)
    (found : (cpuLines content).getLast? = some tokens) : ∃ s, parseProcStat content = some s := by
  have through := (@foldlM_statLine_isSome (.zero, false) content).mpr completes
  obtain ⟨⟨after, seen⟩, ran⟩ := Option.isSome_iff_exists.mp through
  obtain ⟨_, seenAfter⟩ := foldlM_statLine ran
  rw [← cpuLines, found] at seenAfter
  exact ⟨after, by simp_all [parseProcStat]⟩

end Lines

end GlancesRs
