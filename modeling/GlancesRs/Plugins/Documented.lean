import GlancesRs.Plugins.Instantaneous
import GlancesRs.Plugins.Network
import GlancesRs.Plugins.Diskio
import GlancesRs.Plugins.Percentages
import GlancesRs.Plugins.PrimaryKeys
import GlancesRs.Plugins.Schema

namespace GlancesRs

open Data

/-! What each plugin's `collect` returns is what the schema documents, whatever
the counters, the tables and the clock read. -/

variable {nanos : ℕ} {id : PluginId} {name : String} {stats : List (String × Json)}

theorem Known.rate {unit : FieldUnit} (found : fieldUnit id name = some unit)
    (measured : unit = .bytesPerSec ∨ unit = .number ∨ unit = .float)
    (range : nanos < 2 ^ 64 * 10 ^ 9) (delta : UInt64) :
    Known id name (.ofRate delta (asSecsF64 nanos)) :=
  .measure found measured (perSec_within delta range)

section Envelopes

variable {items : List Json} {pkField : String}

theorem leveled_nil : Leveled id stats [] :=
  ⟨List.Pairwise.nil, fun _ _ inside => by cases inside⟩

theorem conforms_envelope {elapsed : Float} {bound : ℚ} (unkeyed : id.keyField = none)
    (documented : Documented id stats) (measured : (round3 elapsed).Within bound) :
    Conforms id (envelope (.object stats) elapsed) := by
  have shape : envelope (.object stats) elapsed = .object (insertMember "_levels" (.object [])
      (insertMember "time_since_update" (.number (.float (round3 elapsed))) stats)) := by
    simp only [envelope, Json.ofF64_within measured]
  rw [shape]
  exact .scalar unkeyed documented leveled_nil measured

theorem envelopeKeyed_eq (items : List Json) (elapsed : Float) (pkField : String) :
    envelopeKeyed items elapsed pkField = .object [("_key", .string pkField),
      ("_levels", .object []), ("data", .array items),
      ("time_since_update", .ofF64 (round3 elapsed))] := rfl

theorem conforms_envelopeKeyed {elapsed : Float} {bound : ℚ} (keyed : id.keyField = some pkField)
    (listed : Listed id pkField items) (measured : (round3 elapsed).Within bound) :
    Conforms id (envelopeKeyed items elapsed pkField) := by
  rw [envelopeKeyed_eq, Json.ofF64_within measured]
  exact .collection keyed listed ⟨List.Pairwise.nil, fun _ _ inside => by cases inside⟩ measured

theorem tick_within (clock : TickClock) {now : Instant} (range : now < 2 ^ 64 * 10 ^ 9) :
    (round3 (clock.tick now).2).Within ((2 ^ 65 : ℕ) : ℚ) := by
  rw [TickClock.tick]
  cases clock.last with
  | none =>
      exact round3_within (Float.within_zero.mono (Nat.cast_nonneg _)) representable_two_pow
        (representable_two_pow_mul (by norm_num)) (by norm_num)
  | some last => exact asSecsF64_round3 ((Nat.sub_le now last).trans_lt range)

theorem keyLe_total (left right : Option String) : keyLe left right || keyLe right left := by
  cases left with
  | none => rfl
  | some left =>
      cases right with
      | none => rfl
      | some right => simpa [keyLe] using le_total left right

theorem keyLe_trans {first second third : Option String} (lower : keyLe first second = true)
    (upper : keyLe second third = true) : keyLe first third = true := by
  cases first with
  | none => rfl
  | some first =>
      cases second with
      | none => cases lower
      | some second =>
          cases third with
          | none => cases upper
          | some third =>
              simp only [keyLe, decide_eq_true_eq] at lower upper ⊢
              exact lower.trans upper

theorem listed_sortItems (objects : ∀ item ∈ items, ∃ stats pk, item = .object stats ∧
    Documented id stats ∧ stats.lookup pkField = some (.string pk)) :
    Listed id pkField (sortItems pkField items) where
  objects item inside := objects item ((List.mem_insertionSort _).mp inside)
  ordered := by
    have total : Std.Total fun left right : Json =>
        keyLe (itemKey pkField left) (itemKey pkField right) = true :=
      ⟨fun left right => by simpa using keyLe_total (itemKey pkField left) (itemKey pkField right)⟩
    have trans : IsTrans Json fun left right =>
        keyLe (itemKey pkField left) (itemKey pkField right) = true :=
      ⟨fun _ _ _ lower upper => keyLe_trans lower upper⟩
    exact List.pairwise_insertionSort _ items

end Envelopes

section Items

variable {«alias» : HashMap String String}

theorem Diskio.item_documented (range : nanos < 2 ^ 64 * 10 ^ 9) (prev cur : DiskIoCounters) :
    ∃ stats, item «alias» (asSecsF64 nanos) name prev cur = .object stats ∧
      Documented .diskio stats ∧ Covered .diskio stats := by
  refine ⟨_, rfl, (documented_jsonMembers ?_).insertSome fun held configured => ?_, fun other listed =>
    mem_names_insertSome (names_jsonMembers.mpr ?_)⟩
  · exact ⟨.text rfl name, .rate rfl (.inr (.inl rfl)) range _, .rate rfl (.inr (.inl rfl)) range _,
      .rate rfl (.inl rfl) range _, .rate rfl (.inl rfl) range _,
      .rate rfl (.inr (.inl rfl)) range _, .rate rfl (.inr (.inl rfl)) range _,
      .count rfl (by decide) _, .count rfl (by decide) _, .count rfl (by decide) _,
      .count rfl (by decide) _, .count rfl (by decide) _, .count rfl (by decide) _, .flag rfl false⟩
  · obtain ⟨shown, _, rfl⟩ := Option.map_eq_some_iff.mp configured
    exact .text rfl shown
  · have all : ∀ name ∈ requiredFields .diskio, name ∈ ["disk_name", "read_count", "write_count",
        "read_bytes", "write_bytes", "read_time", "write_time", "read_latency", "write_latency",
        "read_count_cumul", "write_count_cumul", "read_bytes_cumul", "write_bytes_cumul",
        "hidden"] := by decide +kernel
    exact all other listed

/-- With drops read in both cycles and the interface's status at hand, no field is missing. -/
theorem Network.item_documented {ifaceMeta : HashMap String IfaceMeta}
    (range : nanos < 2 ^ 64 * 10 ^ 9) (prev cur : Counters) :
    ∃ stats, item ifaceMeta «alias» (asSecsF64 nanos) name prev cur = .object stats ∧
      Documented .network stats ∧
      (prev.drops.isSome → cur.drops.isSome → (∃ m up speed capacity,
          ifaceMeta.lookup name = some m ∧ m.isUp = some up ∧ m.speed = some speed ∧
          m.bytesSpeedRatePerSec = some capacity) → Covered .network stats) := by
  have base : Documented .network (jsonMembers
      [ ("interface_name", .string name),
        ("bytes_recv", .ofRate (saturatingSubU64 cur.rx prev.rx) (asSecsF64 nanos)),
        ("bytes_sent", .ofRate (saturatingSubU64 cur.tx prev.tx) (asSecsF64 nanos)),
        ("bytes_all", .ofRate (saturatingAddU64 (saturatingSubU64 cur.rx prev.rx)
          (saturatingSubU64 cur.tx prev.tx)) (asSecsF64 nanos)),
        ("bytes_recv_cumul", .ofU64 cur.rx),
        ("bytes_sent_cumul", .ofU64 cur.tx),
        ("errors_in", .ofRate (saturatingSubU64 cur.errIn prev.errIn) (asSecsF64 nanos)),
        ("errors_out", .ofRate (saturatingSubU64 cur.errOut prev.errOut) (asSecsF64 nanos)),
        ("hidden", .bool false) ]) :=
    documented_jsonMembers ⟨.text rfl name, .rate rfl (.inl rfl) range _, .rate rfl (.inl rfl) range _,
      .rate rfl (.inl rfl) range _, .count rfl (by decide) _, .count rfl (by decide) _,
      .rate rfl (.inr (.inl rfl)) range _, .rate rfl (.inr (.inl rfl)) range _, .flag rfl false⟩
  have baseNames : ∀ name ∈ requiredFields .network, name ∈ ["interface_name", "bytes_recv",
      "bytes_sent", "bytes_all", "bytes_recv_cumul", "bytes_sent_cumul", "errors_in", "errors_out",
      "hidden"] ∨ name ∈ ["dropped_in", "dropped_out"] ∨
      name ∈ ["is_up", "speed", "bytes_speed_rate_per_sec"] := by decide +kernel
  refine ⟨_, rfl, ?_, fun held found known => ?_⟩
  · refine .insertSome (.insertSome (.insertSome (.insertSome ?_ ?_) ?_) ?_) ?_
    · split
      · exact (base.insertMember (.rate rfl (.inr (.inl rfl)) range _)).insertMember
          (.rate rfl (.inr (.inl rfl)) range _)
      · exact base
    · intro value configured
      obtain ⟨shown, _, rfl⟩ := Option.map_eq_some_iff.mp configured
      exact .text rfl shown
    · intro value read
      obtain ⟨up, _, rfl⟩ := Option.map_eq_some_iff.mp read
      exact .flag rfl up
    · intro value read
      obtain ⟨speed, _, rfl⟩ := Option.map_eq_some_iff.mp read
      exact .count rfl (by decide) speed
    · intro value read
      obtain ⟨capacity, _, rfl⟩ := Option.map_eq_some_iff.mp read
      exact .measure rfl (.inl rfl) (Float.within_toFloat_max capacity)
  · obtain ⟨m, up, speed, capacity, listed, isUp, hasSpeed, hasCapacity⟩ := known
    obtain ⟨⟨pdi, pdo⟩, was⟩ := Option.isSome_iff_exists.mp held
    obtain ⟨⟨cdi, cdo⟩, now⟩ := Option.isSome_iff_exists.mp found
    intro other required
    simp only [was, now, listed, isUp, hasSpeed, hasCapacity, Option.getD_some, Option.map_some,
      insertSome_some, mem_names_insertMember]
    rcases baseNames other required with basic | dropped | status
    · exact .inr (.inr (.inr (mem_names_insertSome (mem_names_insertMember.mpr
        (.inr (mem_names_insertMember.mpr (.inr (names_jsonMembers.mpr basic))))))))
    · refine .inr (.inr (.inr (mem_names_insertSome ?_)))
      simp only [mem_names_insertMember]
      simp only [List.mem_cons, List.not_mem_nil, or_false] at dropped
      rcases dropped with rfl | rfl
      · exact .inr (.inl rfl)
      · exact .inl rfl
    · simp only [List.mem_cons, List.not_mem_nil, or_false] at status
      rcases status with rfl | rfl | rfl
      · exact .inr (.inr (.inl rfl))
      · exact .inr (.inl rfl)
      · exact .inl rfl

theorem Fs.item_documented (tables : Tables) (disk : Disk) :
    ∃ stats, item tables «alias» disk name = .object stats ∧ Documented .fs stats ∧
      Covered .fs stats := by
  refine ⟨_, rfl, .insertSome (.insertSome (documented_jsonMembers ?_) ?_) ?_, fun other required =>
    mem_names_insertSome (mem_names_insertSome (names_jsonMembers.mpr ?_))⟩
  · refine ⟨.text rfl _, .text rfl _, .text rfl _, .count rfl (by decide) _, .count rfl (by decide) _,
      .count rfl (by decide) _, .percent rfl ?_⟩
    split
    · exact fsPercent_within _ _
    · exact usage_within _ _
  · intro value mounted
    obtain ⟨options, _, rfl⟩ := Option.map_eq_some_iff.mp mounted
    exact .text rfl options
  · intro value configured
    obtain ⟨shown, _, rfl⟩ := Option.map_eq_some_iff.mp configured
    exact .text rfl shown
  · have all : ∀ name ∈ requiredFields .fs, name ∈ ["device_name", "fs_type", "mnt_point", "size",
        "used", "free", "percent"] := by decide +kernel
    exact all other required

end Items

end GlancesRs
