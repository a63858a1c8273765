import GlancesRs.Alerts.Published
import GlancesRs.Server.AllStats
import GlancesRs.Server.Carried

namespace GlancesRs

open Data

/-! The bodies the API serves, over whole runs: what some `collect` of the plugin
returned, conforming to the schema, with the levels of its own cycle. -/

variable {setup : ServerSetup} {app : AppState} {id : PluginId} {r : ℕ}

section Bodies

/-- What a plugin collects is what some `collect` of it can return. -/
def ServerAction.CollectsPayloads (setup : ServerSetup) (isMatch : setup.crates.Regex → String → Bool)
    (action : ServerAction) : Prop :=
  ∀ id l value, action = .work id (.collect l value) →
    ∃ full, Collected setup.crates isMatch id full value

/-- A payload that the plugin collected in the run. -/
def CollectedIn (labels : List ServerAction) (id : PluginId) (payload : Json) : Prop :=
  ∃ l, .work id (.collect l payload) ∈ labels

/-- A body of the schema: one of the payloads the plugin collected in the run but for the
levels, from which nothing is missing unless the system could not be read. -/
def ServedBody (setup : ServerSetup) (isMatch : setup.crates.Regex → String → Bool)
    (labels : List ServerAction) (id : PluginId) (body : Json) : Prop :=
  ∃ full payload, CollectedIn labels id payload ∧ Collected setup.crates isMatch id full payload ∧
    Conforms id body ∧ (full = true → Covers id body) ∧
    ∀ name, name ≠ "_levels" → body.get? name = payload.get? name

theorem Exit.result_ok {exit : Exit} {body : Json} (ok : exit.result = .ok body) :
    ∃ snapshot, exit = .found snapshot ∧ snapshot.body = body := by
  cases exit with
  | found snapshot =>
      cases ok
      exact ⟨snapshot, rfl, rfl⟩
  | _ => cases ok

variable [NumberText] {isMatch : setup.crates.Regex → String → Bool} {labels : List ServerAction}
variable {exchange : Exchange} {reply : Reply} {snapshot : Snapshot}

theorem servedBody_of_observed {value body : Json} (ran : CollectedIn labels id value)
    (collected : ∃ full, Collected setup.crates isMatch id full value)
    (observed : withLevels setup.config id value = some body) :
    ServedBody setup isMatch labels id body := by
  obtain ⟨full, collected⟩ := collected
  obtain ⟨conforms, covers⟩ := collected.conforms
  obtain ⟨published, same⟩ := withLevels_conforms conforms observed
  exact ⟨full, value, ran, collected, published, fun read => covers_of_get? same (covers read), same⟩

theorem servedBody_of_exit (collects : ∀ label ∈ labels, label.CollectsPayloads setup isMatch)
    (ran : (serverSystem setup).run (serverSystem setup).init labels = some app)
    (done : app.exit id r = some (.found snapshot)) :
    ServedBody setup isMatch labels id snapshot.body := by
  have carries : app.Carries (fun id value => CollectedIn labels id value ∧
      ∃ full, Collected setup.crates isMatch id full value) (ServedBody setup isMatch labels) := by
    refine TransitionSystem.run_invariant_of_labels
      (fun label member before after carries taken => (AppState.step_moves taken).carries
        (fun id l value same => ⟨⟨l, same ▸ member⟩, collects label member id l value same⟩)
        (fun _ _ _ _ _ _ _ _ _ collected called =>
          servedBody_of_observed collected.1 collected.2 (observe_value called))
        carries) AppState.carries_initial ran
  exact carries.exit done

theorem pluginStats_ok {name : String} {exit : Exit}
    (ok : (pluginStats name exit.result).status = 200) :
    ∃ snapshot, exit = .found snapshot ∧
      pluginStats name exit.result = .json 200 snapshot.body := by
  cases exit with
  | found snapshot => exact ⟨snapshot, rfl, rfl⟩
  | _ => simp [pluginStats, Exit.result, notFound, GlancesRs.guardElapsed, Reply.json] at ok

/-- A property of every body a plugin's requests find is one of every body served,
alone or in `/all`. -/
theorem bodies_of_reply {kept : PluginId → Json → Prop}
    (holds : ∀ id r snapshot, app.exit id r = some (.found snapshot) → kept id snapshot.body)
    (reachable : (serverSystem setup).Reachable app) (member : exchange ∈ app.exchanges)
    (replied : exchange.handling = .replied reply) (ok : reply.status = 200) :
    (∀ name, exchange.route = .plugin name → ∃ id body, name = id.asStr ∧
      reply = .json 200 body ∧ kept id body) ∧
    (exchange.route = .all → ∃ members, reply = .json 200 (.object members) ∧
      SortedMembers members ∧ ∀ name body, (name, body) ∈ members →
        ∃ id, name = id.asStr ∧ kept id body) := by
  have accounted := accounted_of_reachable reachable exchange member
  rw [Exchange.Accounted, replied] at accounted
  cases accounted with
  | @refused response barred =>
      rcases (throughLayers_respond barred).2 with ⟨_, status⟩ | ⟨_, _, rfl⟩
      · exact absurd (status.symm.trans ok) (by decide)
      · cases ok
  | inert passed handled =>
      refine ⟨fun name named => ?_, fun named => ?_⟩
      · rcases handle_reply handled with ⟨_, known⟩ | ⟨status, _⟩
        · exact absurd named (known name (by rw [named]; rfl)).1
        · omega
      · rw [named] at handled
        cases handled
  | @plugin name id r exit passed named registered _ done =>
      refine ⟨fun other same => ?_, fun same => ?_⟩
      · rw [named] at same
        cases same
        obtain ⟨snapshot, rfl, body⟩ := pluginStats_ok ok
        exact ⟨id, snapshot.body, (registeredPlugin_eq_some.mp registered).1, body, holds id r snapshot done⟩
      · rw [named] at same
        cases same
  | @all ended passed named own done complete =>
      refine ⟨fun other same => ?_, fun _ => ?_⟩
      · rw [named] at same
        cases same
      · have tasks := TaskEnd.byPlugin_perm own complete
        have ends := endOf_eq (tasks.nodup_iff.mpr (PluginId.all_nodup.filter _))
        refine ⟨servedMembers setup.config (endOf (TaskEnd.byPlugin ended)), ?_, servedMembers_sorted,
          fun name body inside => ?_⟩
        · rw [Reply.json, TaskEnd.map_result, ← allStats_servedMembers tasks ends]
        · obtain ⟨id, exposed, rfl, result⟩ := mem_servedMembers.mp inside
          obtain ⟨snapshot, found, rfl⟩ := Exit.result_ok result
          have listed : id ∈ (TaskEnd.byPlugin ended).map Prod.fst :=
            tasks.mem_iff.mpr (List.mem_filter.mpr ⟨id.mem_all, exposed⟩)
          obtain ⟨task, member, rfl⟩ := List.mem_map.mp listed
          have same := ends task member
          obtain ⟨⟨⟨_, r⟩, exit⟩, ending, rfl⟩ := List.mem_map.mp member
          have finished := done _ _ _ ending
          have same : exit = .found snapshot := same.trans found
          exact ⟨_, rfl, holds _ r snapshot (by rw [finished, same])⟩

/-- Whatever order the tasks of the server run in, every body it serves for a plugin,
alone or in `/all`, is one that the plugin collected in the run and that its schema
documents. -/
theorem served_conforms (collects : ∀ label ∈ labels, label.CollectsPayloads setup isMatch)
    (ran : (serverSystem setup).run (serverSystem setup).init labels = some app)
    (member : exchange ∈ app.exchanges) (replied : exchange.handling = .replied reply)
    (ok : reply.status = 200) :
    (∀ name, exchange.route = .plugin name → ∃ id body, name = id.asStr ∧
      reply = .json 200 body ∧ ServedBody setup isMatch labels id body) ∧
    (exchange.route = .all → ∃ members, reply = .json 200 (.object members) ∧
      SortedMembers members ∧ ∀ name body, (name, body) ∈ members →
        ∃ id, name = id.asStr ∧ ServedBody setup isMatch labels id body) :=
  bodies_of_reply (fun _ _ _ done => servedBody_of_exit collects ran done) ⟨labels, ran⟩ member
    replied ok

end Bodies

/-- A host with a quarter of its memory left. -/
def smallHost : Option MemInfo :=
  parseMeminfo "MemTotal:       8 kB\nMemFree:        1 kB\nMemAvailable:   2 kB\n".toList

def coldMem : List ServerAction :=
  [.receive (.plugin "mem") { headers := [] }, .work .mem (.lookup 0),
    .work .mem (.collect 0 (MemPlugin.collect {} 0 smallHost).2), .work .mem (.observe 0 0),
    .work .mem (.publish 0), .work .mem (.setReady 0), .work .mem (.poll 0), .work .mem (.read 0),
    .respond 0]

theorem coldMem_served_conforms : ∃ app exchange reply id body,
    (@serverSystem .integers defaultServer).run (@serverSystem .integers defaultServer).init
      coldMem = some app ∧ exchange ∈ app.exchanges ∧ exchange.handling = .replied reply ∧
    reply = @Reply.json .integers 200 body ∧
    ServedBody defaultServer (fun _ _ => false) coldMem id body := by
  have answered : ((@serverSystem .integers defaultServer).run
      (@serverSystem .integers defaultServer).init coldMem).map (fun app =>
        app.exchanges.map fun exchange => (exchange.route, exchange.status)) =
      some [(.plugin "mem", some 200)] := by
    decide +kernel
  obtain ⟨app, ran, shown⟩ := Option.map_eq_some_iff.mp answered
  obtain ⟨exchange, rest, all, first, _⟩ := List.map_eq_cons_iff.mp shown
  have member : exchange ∈ app.exchanges := by simp [all]
  have collects : ∀ label ∈ coldMem,
      label.CollectsPayloads defaultServer (fun _ _ => false) := by
    intro label inside id l value same
    subst same
    simp only [coldMem, List.mem_cons, ServerAction.work.injEq, Action.collect.injEq, reduceCtorEq,
      List.not_mem_nil, and_false, or_false, false_or] at inside
    obtain ⟨rfl, rfl, rfl⟩ := inside
    exact ⟨_, .mem (by decide) fun m parsed => ⟨_, parsed⟩⟩
  cases replied : exchange.handling with
  | replied reply =>
      simp only [Exchange.status, replied, Prod.mk.injEq, Option.some.injEq] at first
      obtain ⟨named, ok⟩ := first
      obtain ⟨id, body, _, same, served⟩ :=
        (@served_conforms defaultServer app .integers (fun _ _ => false) coldMem exchange reply collects
          ran member replied ok).1 "mem" named
      exact ⟨app, exchange, reply, id, body, ran, member, replied, same, served⟩
  | _ => simp [Exchange.status, replied] at first

end GlancesRs
