import GlancesRs.Plugins.Diskio
import GlancesRs.Plugins.Network
import GlancesRs.Plugins.PrimaryKeys

namespace GlancesRs

open Data

/-! Whole runs of the rate step of `network` and of `diskio`: the state it returns
is fed back to it with the next sample. -/

section Runs

variable {κ : Type}

/-- What a run returns cycle by cycle, from any state and over any samples. -/
def stepRun (step : ℕ → HashMap String κ → HashMap String κ → List Json × HashMap String κ)
    (start : HashMap String κ) (samples : ℕ → HashMap String κ) : ℕ → List Json × HashMap String κ
  | 0 => step 0 start (samples 0)
  | n + 1 => step (n + 1) (stepRun step start samples n).2 (samples (n + 1))

/-- The difference of a counter that a sample need not carry. -/
def readingDelta (reading : κ → Option UInt64) (cur prev : κ) : Option UInt64 := do
  return saturatingSubU64 (← reading cur) (← reading prev)

theorem readingDelta_some (counter : κ → UInt64) :
    (readingDelta fun sample => some (counter sample)) = counterDelta counter := rfl

/-- The counter of `name` that samples `first` to `last` carry, never going back. -/
structure Rising (samples : ℕ → HashMap String κ) (reading : κ → Option UInt64) (name : String)
    (first last : ℕ) (values : ℕ → UInt64) : Prop where
  ordered : first ≤ last
  carried : ∀ i, first ≤ i → i ≤ last → ((samples i).lookup name).bind reading = some (values i)
  rising : ∀ i, first ≤ i → i < last → values i ≤ values (i + 1)

/-- What a run is to return: `deltas` are the integers behind the rates, `readings`
the counters they are differences of and `cumuls` the ones published as they are. -/
structure RateRun (pkField : String) (deltas : List (String × (κ → κ → Option UInt64)))
    (readings : List (String × (κ → Option UInt64))) (cumuls : List (String × (κ → UInt64)))
    (samples : ℕ → HashMap String κ) (elapsed : ℕ → Float)
    (out : ℕ → List Json × HashMap String κ) : Prop where
  state : ∀ n, (out n).2 = samples n
  single : ∀ n, Ascending pkField (out (n + 1)).1
  keys : ∀ n name, some name ∈ (out (n + 1)).1.map (itemKey pkField) ↔
    name ∈ samples n ∧ name ∈ samples (n + 1)
  items : ∀ n, ∀ item ∈ (out (n + 1)).1, ∃ name prev cur,
    itemKey pkField item = some name ∧ (samples n).lookup name = some prev ∧
      (samples (n + 1)).lookup name = some cur ∧
      (∀ entry ∈ deltas,
        item.get? entry.1 = (entry.2 cur prev).map (Json.ofRate · (elapsed (n + 1)))) ∧
      ∀ entry ∈ cumuls, item.get? entry.1 = some (.ofU64 (entry.2 cur))
  totals : ∀ entry ∈ readings, ∀ name first last values,
    Rising samples entry.2 name first last values →
    (∀ i, first ≤ i → i < last → ∃ item ∈ (out (i + 1)).1,
      itemKey pkField item = some name ∧ item.get? entry.1 =
        some (.ofRate (saturatingSubU64 (values (i + 1)) (values i)) (elapsed (i + 1)))) ∧
    ∑ i ∈ Finset.Ico first last, (saturatingSubU64 (values (i + 1)) (values i)).toNat =
      (values last).toNat - (values first).toNat

variable {pkField : String} {deltas : List (String × (κ → κ → Option UInt64))}
variable {readings : List (String × (κ → Option UInt64))} {cumuls : List (String × (κ → UInt64))}
variable {render : ℕ → String → κ → κ → Json} {start : HashMap String κ}
variable {samples : ℕ → HashMap String κ} {elapsed : ℕ → Float}

theorem stepRun_state (n : ℕ) :
    (stepRun (fun n => stepItems pkField (render n)) start samples n).2 = samples n := by
  cases n <;> rfl

theorem stepRun_succ (n : ℕ) :
    (stepRun (fun n => stepItems pkField (render n)) start samples (n + 1)).1 =
      (stepItems pkField (render (n + 1)) (samples n) (samples (n + 1))).1 := by
  rw [stepRun, stepRun_state]

theorem mem_stepRun {n : ℕ} {item : Json} :
    item ∈ (stepRun (fun n => stepItems pkField (render n)) start samples (n + 1)).1 ↔
      ∃ name prev cur, (samples n).lookup name = some prev ∧
        (samples (n + 1)).lookup name = some cur ∧ item = render (n + 1) name prev cur := by
  rw [stepRun_succ]
  exact mem_stepItems

theorem stepRun_keys
    (keyed : ∀ n name prev cur, (render n name prev cur).get? pkField = some (.string name))
    (n : ℕ) (name : String) :
    some name ∈ (stepRun (fun n => stepItems pkField (render n)) start samples (n + 1)).1.map
        (itemKey pkField) ↔
      name ∈ samples n ∧ name ∈ samples (n + 1) := by
  rw [List.mem_map]
  constructor
  · intro listed
    obtain ⟨item, inside, named⟩ := listed
    obtain ⟨other, prev, cur, held, found, rfl⟩ := mem_stepRun.mp inside
    rw [itemKey_of_string (keyed (n + 1) other prev cur), Option.some.injEq] at named
    subst named
    exact ⟨AList.lookup_isSome.mp (by simp [held]), AList.lookup_isSome.mp (by simp [found])⟩
  · intro both
    obtain ⟨prev, held⟩ := Option.isSome_iff_exists.mp (AList.lookup_isSome.mpr both.1)
    obtain ⟨cur, found⟩ := Option.isSome_iff_exists.mp (AList.lookup_isSome.mpr both.2)
    exact ⟨_, mem_stepRun.mpr ⟨name, prev, cur, held, found, rfl⟩,
      itemKey_of_string (keyed (n + 1) name prev cur)⟩

/-- While a counter rises, each of its differences is published. -/
theorem Rising.rated {reading : κ → Option UInt64} {field name : String} {first last i : ℕ}
    {values : ℕ → UInt64} (counted : Rising samples reading name first last values)
    (keyed : ∀ n name prev cur, (render n name prev cur).get? pkField = some (.string name))
    (rated : ∀ n name prev cur, (render n name prev cur).get? field =
      (readingDelta reading cur prev).map (Json.ofRate · (elapsed n)))
    (after : first ≤ i) (before : i < last) :
    ∃ item ∈ (stepRun (fun n => stepItems pkField (render n)) start samples (i + 1)).1,
      itemKey pkField item = some name ∧ item.get? field =
        some (.ofRate (saturatingSubU64 (values (i + 1)) (values i)) (elapsed (i + 1))) := by
  obtain ⟨prev, held, was⟩ := Option.bind_eq_some_iff.mp (counted.carried i after before.le)
  obtain ⟨cur, found, now⟩ :=
    Option.bind_eq_some_iff.mp (counted.carried (i + 1) (by omega) before)
  refine ⟨render (i + 1) name prev cur, mem_stepRun.mpr ⟨name, prev, cur, held, found, rfl⟩,
    itemKey_of_string (keyed _ _ _ _), ?_⟩
  have published := rated (i + 1) name prev cur
  simpa [readingDelta, was, now] using published

theorem Rising.total {reading : κ → Option UInt64} {name : String} {first last : ℕ}
    {values : ℕ → UInt64} (counted : Rising samples reading name first last values) :
    ∑ i ∈ Finset.Ico first last, (saturatingSubU64 (values (i + 1)) (values i)).toNat =
      (values last).toNat - (values first).toNat := by
  have telescoped := sum_differences counted.ordered fun i after before =>
    UInt64.le_iff_toNat_le.mp (counted.rising i after before)
  simpa only [saturatingSubU64_toNat] using telescoped.2

/-- One step says all there is to say about a run: it keeps nothing but its sample. -/
theorem stepRun_rateRun
    (keyed : ∀ n name prev cur, (render n name prev cur).get? pkField = some (.string name))
    (rated : ∀ n name prev cur, ∀ entry ∈ deltas, (render n name prev cur).get? entry.1 =
      (entry.2 cur prev).map (Json.ofRate · (elapsed n)))
    (cumulated : ∀ n name prev cur, ∀ entry ∈ cumuls,
      (render n name prev cur).get? entry.1 = some (.ofU64 (entry.2 cur)))
    (differences : ∀ entry ∈ readings, (entry.1, readingDelta entry.2) ∈ deltas) :
    RateRun pkField deltas readings cumuls samples elapsed
      (stepRun (fun n => stepItems pkField (render n)) start samples) := by
  constructor
  · exact stepRun_state
  · intro n
    rw [stepRun_succ]
    exact stepItems_ascending (keyed (n + 1))
  · exact stepRun_keys keyed
  · intro n item listed
    obtain ⟨name, prev, cur, held, found, rfl⟩ := mem_stepRun.mp listed
    exact ⟨name, prev, cur, itemKey_of_string (keyed (n + 1) name prev cur), held, found,
      rated (n + 1) name prev cur, cumulated (n + 1) name prev cur⟩
  · intro entry listed name first last values counted
    refine ⟨fun i after before => counted.rated keyed ?_ after before, counted.total⟩
    intro n name prev cur
    exact rated n name prev cur _ (differences entry listed)

end Runs

/-- The counters behind the rates; `bytes_all` adds two of them. -/
def Network.readings : List (String × (Network.Counters → Option UInt64)) :=
  [ ("bytes_recv", fun counters => some counters.rx),
    ("bytes_sent", fun counters => some counters.tx),
    ("errors_in", fun counters => some counters.errIn),
    ("errors_out", fun counters => some counters.errOut),
    ("dropped_in", fun counters => counters.drops.map Prod.fst),
    ("dropped_out", fun counters => counters.drops.map Prod.snd) ]

def Network.cumuls : List (String × (Network.Counters → UInt64)) :=
  [("bytes_recv_cumul", Network.Counters.rx), ("bytes_sent_cumul", Network.Counters.tx)]

def Diskio.readings : List (String × (DiskIoCounters → Option UInt64)) :=
  [ ("read_count", fun counters => some counters.readCount),
    ("write_count", fun counters => some counters.writeCount),
    ("read_bytes", fun counters => some counters.readBytes),
    ("write_bytes", fun counters => some counters.writeBytes),
    ("read_time", fun counters => some counters.readTime),
    ("write_time", fun counters => some counters.writeTime) ]

def Diskio.cumuls : List (String × (DiskIoCounters → UInt64)) :=
  [ ("read_count_cumul", DiskIoCounters.readCount),
    ("write_count_cumul", DiskIoCounters.writeCount),
    ("read_bytes_cumul", DiskIoCounters.readBytes),
    ("write_bytes_cumul", DiskIoCounters.writeBytes) ]

section Members

variable {elapsed : Float} {«alias» : HashMap String String} {name : String}

theorem Network.item_cumuls {ifaceMeta : HashMap String IfaceMeta} {prev cur : Counters} :
    ∀ entry ∈ cumuls,
      (item ifaceMeta «alias» elapsed name prev cur).get? entry.1 = some (.ofU64 (entry.2 cur)) := by
  cases was : prev.drops <;> cases now : cur.drops <;>
    simp [cumuls, item, was, now, lookup_insertSome_of_ne, lookup_insertMember_of_ne,
      List.lookup_cons]

theorem Diskio.item_cumuls {prev cur : DiskIoCounters} : ∀ entry ∈ cumuls,
    (item «alias» elapsed name prev cur).get? entry.1 = some (.ofU64 (entry.2 cur)) := by
  simp [cumuls, item, lookup_insertSome_of_ne, List.lookup_cons]

theorem Network.readings_differences :
    ∀ entry ∈ readings, (entry.1, readingDelta entry.2) ∈ rateDeltas := by
  have dropped (side : UInt64 × UInt64 → UInt64) :
      (readingDelta fun counters : Counters => counters.drops.map side) = dropDelta side := by
    funext cur prev
    cases was : prev.drops <;> cases now : cur.drops <;> simp [readingDelta, dropDelta, was, now]
  simp [readings, rateDeltas, readingDelta_some, dropped]

theorem Diskio.readings_differences :
    ∀ entry ∈ readings, (entry.1, readingDelta entry.2) ∈ rateDeltas := by
  simp [readings, rateDeltas, readingDelta_some]

end Members

/-- Both rate steps over every run: each cycle rates the keys of its own sample and
the one before it, and nothing older is left. -/
theorem step_rateRuns («alias» : HashMap String String) (elapsed : ℕ → Float) :
    (∀ (metas : ℕ → HashMap String Network.IfaceMeta) start samples,
      RateRun "interface_name" Network.rateDeltas Network.readings Network.cumuls samples elapsed
        (stepRun (fun n previous current =>
          Network.step previous current (elapsed n) (metas n) «alias») start samples)) ∧
    ∀ start samples,
      RateRun "disk_name" Diskio.rateDeltas Diskio.readings Diskio.cumuls samples elapsed
        (stepRun (fun n previous current =>
          Diskio.step previous current (elapsed n) «alias») start samples) := by
  constructor
  · intro metas start samples
    exact stepRun_rateRun (fun _ _ _ _ => Network.item_key) (fun _ _ _ _ => Network.item_rates)
      (fun _ _ _ _ => Network.item_cumuls) Network.readings_differences
  · intro start samples
    exact stepRun_rateRun (fun _ _ _ _ => Diskio.item_key) (fun _ _ _ _ => Diskio.item_rates)
      (fun _ _ _ _ => Diskio.item_cumuls) Diskio.readings_differences

end GlancesRs
