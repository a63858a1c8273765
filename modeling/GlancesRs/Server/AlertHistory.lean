import GlancesRs.Alerts.History
import GlancesRs.Server.Conformance
import GlancesRs.Server.Progress

namespace GlancesRs

open Data

/-! The alert engine inside the server is the engine alone: whatever order the tasks of
all plugins run in, what is journaled, what is stored and what `/alert` answers come
from one run of `observe`, one cycle for each time a task observes. -/

variable {setup : ServerSetup} {app after : AppState} {id : PluginId}
variable {collected : PluginId → Json → Prop} {cycles : List Cycle} {journal : Journal}
variable {action : ServerAction}

section Observed

/-- The cycle an action observes, but for its payload. -/
def ServerAction.observes : ServerAction → Option (PluginId × ℤ)
  | .work id (.observe _ nowSys) => some (id, nowSys)
  | _ => none

/-- A body that the journal published for a plugin. -/
def Journal.Published (journal : Journal) (id : PluginId) (body : Json) : Prop :=
  ∃ entry ∈ journal.log, entry.cycle.plugin = id ∧ entry.value = body

variable [NumberText]

/-- A run of the alert engine alone that accounts for what the server has observed. -/
structure AppState.Records (setup : ServerSetup) (collected : PluginId → Json → Prop)
    (app : AppState) (cycles : List Cycle) (journal : Journal) : Prop where
  ran : (alertsSystem setup.config setup.hostname).run
    (alertsSystem setup.config setup.hostname).init cycles = some journal
  alerts : app.alerts = journal.alerts
  committed : app.committed = journal.committed
  ordered : (cycles.map Cycle.now).Pairwise (· ≤ ·)
  sources : ∀ cycle ∈ cycles, cycle.now ≤ app.clock.nanos ∧
    isRegistered setup.config cycle.plugin = true ∧ collected cycle.plugin cycle.payload
  carries : app.Carries collected journal.Published

theorem AppState.records_initial :
    (serverSystem setup).init.Records setup collected []
      (alertsSystem setup.config setup.hostname).init where
  ran := rfl
  alerts := rfl
  committed := rfl
  ordered := .nil
  sources := by simp
  carries := carries_initial

/-- An `observe` adds its cycle to the run, any other step adds nothing. -/
theorem ServerMove.records (move : ServerMove setup app action after)
    (reachable : (serverSystem setup).Reachable app)
    (collects : ∀ id l value, action = .work id (.collect l value) → collected id value)
    (records : app.Records setup collected cycles journal) :
    ∃ more added, after.Records setup collected (cycles ++ more) added ∧
      more.map (fun cycle => (cycle.plugin, cycle.nowSys)) = action.observes.toList := by
  obtain ⟨later, ⟨alerts, committed, silent⟩ | ⟨id, l, nowSys, loop, value, out, rfl, found, at_, called,
    alerts, committed⟩⟩ := move.shared
  · refine ⟨[], journal, ⟨?_, alerts.trans records.alerts, committed.trans records.committed, ?_, ?_, ?_⟩, ?_⟩
    · rw [List.append_nil]
      exact records.ran
    · rw [List.append_nil]
      exact records.ordered
    · rw [List.append_nil]
      exact fun cycle member => (records.sources cycle member).imp_left fun past => past.trans later
    · refine move.carries collects (fun id l nowSys _ _ _ same => ?_) records.carries
      exact absurd same (silent id l nowSys)
    · have unseen : action.observes = none := by
        cases action with
        | work id own =>
            cases own with
            | observe l nowSys => exact absurd rfl (silent id l nowSys)
            | _ => rfl
        | _ => rfl
      simp [unseen]
  · let cycle : Cycle := { plugin := id, now := app.clock.nanos, nowSys, payload := value }
    let entry : Entry := { cycle, value := out.value, committed := out.committed }
    have taken : (alertsSystem setup.config setup.hostname).step journal cycle =
        some { alerts := out.alerts, log := journal.log ++ [entry] } := by
      rw [records.alerts] at called
      exact congrArg (Option.map _) called
    have held := (records.carries id).loops loop (List.mem_of_getElem? found)
    rw [Loop.Carries, at_] at held
    refine ⟨[cycle], { alerts := out.alerts, log := journal.log ++ [entry] },
      ⟨TransitionSystem.run_trans records.ran (TransitionSystem.run_of_step taken), alerts, ?_, ?_,
        ?_, ?_⟩, rfl⟩
    · rw [committed, records.committed]
      simp [Journal.committed, entry]
    · rw [List.map_append]
      refine List.pairwise_append.mpr ⟨records.ordered, List.pairwise_singleton _ _, ?_⟩
      simpa [cycle] using fun cycle member => (records.sources cycle member).1
    · refine List.forall_mem_append.mpr ⟨fun cycle member => ?_, List.forall_mem_singleton.mpr ?_⟩
      · exact (records.sources cycle member).imp_left fun past => past.trans later
      · exact ⟨later, registered_of_loop reachable found, held⟩
    · have wider := records.carries.mono (fun id body published => by
        obtain ⟨former, member, own⟩ := published
        exact (⟨former, List.mem_append_left [entry] member, own⟩ :
          Journal.Published { alerts := out.alerts, log := journal.log ++ [entry] } id body))
      refine move.carries collects (fun other k sys found' value' result same known again _ observed => ?_)
        wider
      cases same
      rw [known] at found
      cases found
      rw [again] at at_
      cases at_
      rw [observed] at called
      cases called
      exact ⟨entry, by simp, rfl, rfl⟩

theorem AppState.records_run {labels : List ServerAction}
    (reachable : (serverSystem setup).Reachable app)
    (collects : ∀ label ∈ labels, ∀ id l value, label = .work id (.collect l value) → collected id value)
    (records : app.Records setup collected cycles journal)
    (ran : (serverSystem setup).run app labels = some after) :
    ∃ more added, after.Records setup collected (cycles ++ more) added ∧
      more.map (fun cycle => (cycle.plugin, cycle.nowSys)) = labels.filterMap ServerAction.observes := by
  induction labels generalizing app cycles journal with
  | nil =>
      cases ran
      exact ⟨[], journal, by rwa [List.append_nil], rfl⟩
  | cons label rest ih =>
      obtain ⟨middle, taken, continued⟩ := Option.bind_eq_some_iff.mp ran
      obtain ⟨first, grown, recorded, seen⟩ := (AppState.step_moves taken).records reachable
        (collects label List.mem_cons_self) records
      obtain ⟨later, added, ended, rest_seen⟩ := ih (reachable.step taken)
        (fun other member => collects other (List.mem_cons_of_mem _ member)) recorded continued
      refine ⟨first ++ later, added, by rwa [← List.append_assoc], ?_⟩
      rw [List.map_append, seen, rest_seen, List.filterMap_cons]
      cases label.observes <;> rfl

/-- The ring of the server is the end of what it has committed. -/
theorem history_of_reachable (reachable : (serverSystem setup).Reachable app) :
    app.alerts.inner.history = app.committed.rtake setup.config.alerts.historySize := by
  obtain ⟨labels, ran⟩ := reachable
  obtain ⟨more, journal, records, _⟩ := @AppState.records_run setup _ app (fun _ _ => True) _ _ _ labels
    .initial (fun _ _ _ _ _ _ => trivial) AppState.records_initial ran
  rw [records.alerts, records.committed]
  exact (alertsSystem_complete records.ran).recent

end Observed

section Served

variable [NumberText] {x : ℕ} {exchange : Exchange} {reply : Reply}

omit [NumberText] in
theorem AppState.openExchange_at {route : Route} {request : Request} {handling : Handling}
    {opened : List (PluginId × ℕ)}
    (found : (app.openExchange route request handling opened).exchanges[x]? = some exchange) :
    app.exchanges[x]? = some exchange ∨
      x = app.exchanges.length ∧ exchange = { route, request, handling, opened } := by
  rw [openExchange, List.getElem?_append] at found
  split at found
  · exact .inl found
  · rename_i beyond
    obtain ⟨inside, rfl⟩ := List.getElem?_eq_some_iff.mp found
    rw [List.length_singleton] at inside
    exact .inr ⟨by omega, List.getElem_singleton _⟩

omit [NumberText] in
theorem AppState.setHandling_at {k : ℕ} {former : Exchange} {handling : Handling}
    (found : (app.setHandling k former handling).exchanges[x]? = some exchange)
    (other : exchange.route ≠ former.route) : app.exchanges[x]? = some exchange := by
  rw [setHandling, List.getElem?_set] at found
  split at found
  · split at found
    · cases found
      exact absurd rfl other
    · cases found
  · exact found

/-- What a handler still works on is no `/alert`. -/
theorem Exchange.Accounted.awaits (accounted : exchange.Accounted setup app)
    (unanswered : ∀ reply, exchange.handling ≠ .replied reply) : exchange.route ≠ .alert := by
  rw [Exchange.Accounted] at accounted
  split at accounted
  · rw [accounted.2.1]
    simp
  · rw [accounted.2.1]
    simp
  · rename_i reply answered
    exact absurd answered (unanswered reply)
  · rcases accounted.2 with named | ⟨_, named⟩ <;> simp [named]

/-- An answer of `/alert` after a step was there before, or is the ring's. -/
theorem ServerMove.alert_exchange (move : ServerMove setup app action after)
    (accounted : app.Accounted setup) (found : after.exchanges[x]? = some exchange)
    (named : exchange.route = .alert) (replied : exchange.handling = .replied reply)
    (ok : reply.status = 200) :
    app.exchanges[x]? = some exchange ∨
      x = app.exchanges.length ∧ reply = .json 200 (.array app.alerts.history) := by
  have apart {former : Exchange} {k : ℕ} (known : app.exchanges[k]? = some former)
      (unanswered : ∀ reply, former.handling ≠ .replied reply) : exchange.route ≠ former.route := by
    rw [named]
    exact ((accounted former (List.mem_of_getElem? known)).awaits unanswered).symm
  cases move with
  | ticked | worked => exact .inl found
  | refused barred =>
      rcases AppState.openExchange_at found with old | ⟨_, rfl⟩
      · exact .inl old
      · cases replied
        rcases (throughLayers_respond barred).2 with ⟨_, status⟩ | ⟨_, _, rfl⟩
        · exact absurd (status.symm.trans ok) (by decide)
        · cases ok
  | answered passed handled =>
      rcases AppState.openExchange_at found with old | ⟨last, rfl⟩
      · exact .inl old
      · cases replied
        cases named
        cases handled
        exact .inr ⟨last, rfl⟩
  | ensured | spread =>
      rcases AppState.openExchange_at found with old | ⟨_, rfl⟩
      · exact .inl old
      · cases replied
  | started known at_ =>
      have other := apart known (by simp [at_])
      exact .inl (AppState.setHandling_at found other)
  | joined known at_ | pluginReplied known at_ | allReplied known at_ =>
      exact .inl (AppState.setHandling_at found (apart known (by simp [at_])))
  | pluginAbandoned known at_ =>
      have kept := AppState.setHandling_at found (apart known (by simp [at_]))
      rw [AppState.exchanges_dropRequest] at kept
      exact .inl kept
  | allAbandoned known at_ =>
      have kept := AppState.setHandling_at found (apart known (by simp [at_]))
      rw [AppState.exchanges_dropTasks] at kept
      exact .inl kept

/-- Each answer of `/alert` is the ring as it was after so many committed events, and
a later request sees no fewer of them. -/
structure AppState.AlertsServed (setup : ServerSetup) (app : AppState) (cuts : ℕ → ℕ) : Prop where
  monotone : Monotone cuts
  bounded : ∀ x, cuts x ≤ app.committed.length
  answers : ∀ (x : ℕ) (exchange : Exchange) (reply : Reply), app.exchanges[x]? = some exchange →
    exchange.route = .alert → exchange.handling = .replied reply → reply.status = 200 →
    reply = .json 200 (.array
      (((app.committed.take (cuts x)).rtake setup.config.alerts.historySize).map Event.toJson))

theorem ServerMove.alertsServed (move : ServerMove setup app action after)
    (reachable : (serverSystem setup).Reachable app) {cuts : ℕ → ℕ}
    (served : app.AlertsServed setup cuts) : ∃ cuts, after.AlertsServed setup cuts := by
  have grown : ∃ added, after.committed = app.committed ++ added := by
    obtain ⟨_, ⟨_, same, _⟩ | ⟨_, _, _, _, _, out, _, _, _, _, _, same⟩⟩ := move.shared
    · exact ⟨[], by simpa using same⟩
    · exact ⟨out.committed, same⟩
  obtain ⟨added, same⟩ := grown
  -- Requests that come later see everything committed so far.
  refine ⟨fun x => if x < app.exchanges.length then cuts x else app.committed.length, ?_, ?_, ?_⟩
  · intro x y ordered
    dsimp only
    split <;> split
    · exact served.monotone ordered
    · exact served.bounded x
    · omega
    · exact le_rfl
  · intro x
    rw [same, List.length_append]
    have bounded := served.bounded x
    split <;> omega
  · intro x exchange reply found named replied ok
    rcases move.alert_exchange (accounted_of_reachable reachable) found named replied ok with old | ⟨rfl, rfl⟩
    · rw [if_pos (List.getElem?_eq_some_iff.mp old).1, same, List.take_append_of_le_length (served.bounded x)]
      exact served.answers x exchange reply old named replied ok
    · rw [if_neg (lt_irrefl _), same, List.take_left, ← history_of_reachable reachable]
      rfl

theorem alertsServed_of_reachable (reachable : (serverSystem setup).Reachable app) :
    ∃ cuts, app.AlertsServed setup cuts := by
  refine @TransitionSystem.Reachable.invariant_of_reachable _ _ (serverSystem setup)
    (fun app => ∃ cuts, app.AlertsServed setup cuts) app ?_ ?_ reachable
  · refine ⟨fun _ => 0, monotone_const, fun _ => Nat.zero_le _, ?_⟩
    intro x exchange reply found
    simp [serverSystem] at found
  · intro before action after reached served taken
    obtain ⟨cuts, served⟩ := served
    exact (AppState.step_moves taken).alertsServed reached served

/-- The server refines the alert engine: in every run of it there is one run of
`observe`, with one cycle for each time a task observed, in that order and with the
payloads collected, that committed what the server committed, published every body the
server answers with, and whose ring `/alert` answers with. -/
theorem server_journal {labels : List ServerAction}
    (ran : (serverSystem setup).run (serverSystem setup).init labels = some app) :
    ∃ cycles journal, (alertsSystem setup.config setup.hostname).run
        (alertsSystem setup.config setup.hostname).init cycles = some journal ∧
      app.alerts = journal.alerts ∧ app.committed = journal.committed ∧
      cycles.map (fun cycle => (cycle.plugin, cycle.nowSys)) = labels.filterMap ServerAction.observes ∧
      (cycles.map Cycle.now).Pairwise (· ≤ ·) ∧
      (∀ cycle ∈ cycles, cycle.now ≤ app.clock.nanos ∧
        isRegistered setup.config cycle.plugin = true ∧
        ∃ l, .work cycle.plugin (.collect l cycle.payload) ∈ labels) ∧
      (∀ exchange ∈ app.exchanges, ∀ reply, exchange.handling = .replied reply → reply.status = 200 →
        (∀ name, exchange.route = .plugin name → ∃ id body, name = id.asStr ∧
          reply = .json 200 body ∧ journal.Published id body) ∧
        (exchange.route = .all → ∃ members, reply = .json 200 (.object members) ∧
          SortedMembers members ∧ ∀ name body, (name, body) ∈ members →
            ∃ id, name = id.asStr ∧ journal.Published id body)) ∧
      ∃ cuts, app.AlertsServed setup cuts := by
  obtain ⟨cycles, journal, records, seen⟩ := AppState.records_run .initial
    (fun label member id l value same =>
      (⟨l, same ▸ member⟩ : ∃ l, ServerAction.work id (.collect l value) ∈ labels))
    AppState.records_initial ran
  exact ⟨cycles, journal, records.ran, records.alerts, records.committed, seen, records.ordered,
    records.sources,
    fun exchange member reply replied ok =>
      bodies_of_reply (fun _ _ _ done => records.carries.exit done) ⟨labels, ran⟩ member replied ok,
    alertsServed_of_reachable ⟨labels, ran⟩⟩

end Served

def watchedDisk : ServerSetup := { defaultServer with config := lastAlert }

/-- Two full mounts, and the alerts asked for before and after. -/
def twoFull : List ServerAction :=
  [.receive .alert { headers := [] }, .receive (.plugin "fs") { headers := [] }, .work .fs (.lookup 0),
    .work .fs (.collect 0 (mounts 0 [mount "/" 95, mount "/home" 99]).payload), .tick 7,
    .work .fs (.observe 0 0), .receive .alert { headers := [] }]

theorem twoFull_server_journal : ∃ app cycles journal,
    (@serverSystem .integers watchedDisk).run (@serverSystem .integers watchedDisk).init twoFull =
      some app ∧
    (@alertsSystem .integers lastAlert "h").run (@alertsSystem .integers lastAlert "h").init
      cycles = some journal ∧
    journal.committed.length = 2 ∧ cycles.map (fun cycle => (cycle.plugin, cycle.nowSys)) = [(.fs, 0)] := by
  have observed : ((@serverSystem .integers watchedDisk).run (@serverSystem .integers watchedDisk).init
      twoFull).map (fun app => app.committed.length) = some 2 := by
    decide +kernel
  obtain ⟨app, ran, two⟩ := Option.map_eq_some_iff.mp observed
  obtain ⟨cycles, journal, alone, _, committed, seen, _⟩ := @server_journal watchedDisk app .integers _ ran
  exact ⟨app, cycles, journal, ran, alone, committed ▸ two, seen⟩

end GlancesRs
