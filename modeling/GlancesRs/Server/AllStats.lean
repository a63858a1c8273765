import GlancesRs.Server.StatusGrid

namespace GlancesRs

open Data

/-! The aggregate route over whole runs: a plugin that timed out is left out, and
nothing else is. -/

variable {setup : ServerSetup} {app : AppState} {exchange : Exchange} {reply : Reply}
variable {ended : PluginId → Exit} {tasks : List (PluginId × Exit)} {id : PluginId}

/-- The object of the registered plugins that `ensure_plugin` served. -/
def servedMembers (config : Config) (ended : PluginId → Exit) : List (String × Json) :=
  collectMembers PluginId.asStr
    (fun id => if isRegistered config id then (ended id).result.toOption else none) PluginId.all

section Members

variable {config : Config} {name : String} {value : Json}

theorem servedMembers_sorted : SortedMembers (servedMembers config ended) :=
  sortedMembers_collectMembers

theorem lookup_servedMembers (registered : isRegistered config id = true) :
    (servedMembers config ended).lookup id.asStr = (ended id).result.toOption := by
  rw [servedMembers, lookup_collectMembers_of_mem PluginId.names_nodup id.mem_all]
  simp [registered]

theorem mem_servedMembers : (name, value) ∈ servedMembers config ended ↔
    ∃ id, isRegistered config id = true ∧ name = id.asStr ∧ (ended id).result = .ok value := by
  rw [← servedMembers_sorted.lookup_eq_some]
  constructor
  · intro found
    obtain ⟨id, _, rfl, made⟩ := collectMembers_source PluginId.names_nodup found
    split at made
    · rename_i registered
      refine ⟨id, registered, rfl, ?_⟩
      cases result : (ended id).result with
      | error => simp [result, Except.toOption] at made
      | ok body =>
          rw [result] at made
          cases made
          rfl
    · cases made
  · intro served
    obtain ⟨id, registered, rfl, result⟩ := served
    rw [lookup_servedMembers registered, result]
    rfl

theorem servedMembers_plain {member : String × Json} (inside : member ∈ servedMembers config ended) :
    PlainName member.1 := by
  obtain ⟨name, value⟩ := member
  obtain ⟨id, _, rfl, _⟩ := mem_servedMembers.mp inside
  exact id.plainName

/-- Tasks with one end for each plugin are the spawned ones with those ends. -/
theorem taskResults_perm [NumberText]
    (complete : (tasks.map Prod.fst).Perm (PluginId.all.filter (isRegistered config)))
    (ends : ∀ task ∈ tasks, task.2 = ended task.1) :
    (tasks.map taskResult).Perm
      (spawned (isRegistered config) fun id => .ok ((ended id).result.map toVec)) := by
  have results : tasks.map taskResult =
      (tasks.map Prod.fst).map fun id => taskResult (id, ended id) := by
    rw [List.map_map]
    refine List.map_congr_left fun task member => ?_
    rw [Function.comp_apply, ← ends task member]
  rw [results]
  exact complete.map _

/-- What `/all` splices are the members of that object, serialized one by one. -/
theorem sortParts_servedMembers [NumberText] {joined : List TaskResult}
    (completed : joined.Perm
      (spawned (isRegistered config) fun id => .ok ((ended id).result.map toVec))) :
    sortParts (joined.filterMap servedPart) =
      (servedMembers config ended).map fun member => (member.1, toVec member.2) := by
  have arrived := completed.filterMap servedPart
  have distinct : ((joined.filterMap servedPart).map Prod.fst).Nodup :=
    (arrived.map Prod.fst).nodup_iff.mpr servedParts_nodup
  refine (sortParts_sorted distinct).ext (List.pairwise_map.mpr servedMembers_sorted) fun part => ?_
  obtain ⟨name, body⟩ := part
  rw [sortParts, List.mem_insertionSort, arrived.mem_iff, mem_servedParts, List.mem_map]
  constructor
  · intro served
    obtain ⟨id, registered, result, rfl⟩ := served
    cases held : (ended id).result with
    | error => simp [held, Except.map] at result
    | ok value =>
        rw [held] at result
        cases result
        exact ⟨(id.asStr, value), mem_servedMembers.mpr ⟨id, registered, rfl, held⟩, rfl⟩
  · intro shown
    obtain ⟨⟨other, value⟩, inside, same⟩ := shown
    obtain ⟨id, registered, rfl, held⟩ := mem_servedMembers.mp inside
    cases same
    exact ⟨id, registered, by rw [held]; rfl, rfl⟩

theorem allStats_servedMembers [NumberText]
    (complete : (tasks.map Prod.fst).Perm (PluginId.all.filter (isRegistered config)))
    (ends : ∀ task ∈ tasks, task.2 = ended task.1) :
    allStats (tasks.map taskResult) = toVec (.object (servedMembers config ended)) := by
  rw [allStats, sortParts_servedMembers (taskResults_perm complete ends)]
  exact composeParts_members fun member inside => servedMembers_plain inside

end Members

section Ends

/-- The end of a plugin's task. -/
def endOf (tasks : List (PluginId × Exit)) (id : PluginId) : Exit :=
  (tasks.lookup id).getD .notRegistered

theorem endOf_eq (distinct : (tasks.map Prod.fst).Nodup) :
    ∀ task ∈ tasks, task.2 = endOf tasks task.1 := by
  induction tasks with
  | nil => simp
  | cons first rest ih =>
      obtain ⟨first, exit⟩ := first
      rw [List.map_cons, List.nodup_cons] at distinct
      obtain ⟨fresh, distinct⟩ := distinct
      refine List.forall_mem_cons.mpr ⟨by simp [endOf], fun task member => ?_⟩
      have listed : task.1 ∈ rest.map Prod.fst := List.mem_map_of_mem member
      have different : (task.1 == first) = false := beq_false_of_ne (ne_of_mem_of_not_mem listed fresh)
      rw [ih distinct task member]
      simp [endOf, List.lookup_cons, different]

/-- The ends of the tasks by plugin. -/
def TaskEnd.byPlugin (ended : List TaskEnd) : List (PluginId × Exit) :=
  ended.map fun task => (task.1.1, task.2)

theorem TaskEnd.map_result [NumberText] (ended : List TaskEnd) :
    ended.map TaskEnd.result = (TaskEnd.byPlugin ended).map taskResult := by
  rw [byPlugin, List.map_map]
  rfl

theorem TaskEnd.byPlugin_perm {ended : List TaskEnd} {opened : List (PluginId × ℕ)}
    {config : Config} (own : (ended.map Prod.fst).Perm opened)
    (complete : (opened.map Prod.fst).Perm (PluginId.all.filter (isRegistered config))) :
    ((TaskEnd.byPlugin ended).map Prod.fst).Perm (PluginId.all.filter (isRegistered config)) := by
  have same : (TaskEnd.byPlugin ended).map Prod.fst = (ended.map Prod.fst).map Prod.fst := by
    rw [byPlugin, List.map_map, List.map_map]
    rfl
  rw [same]
  exact (own.map Prod.fst).trans complete

/-- Whatever order the tasks end in and whatever else the server does, `/all` is
`200` with the object of the plugins served. It opens one request for each registered
plugin: the body is from the loop that request joined or a later one, and the plugin is
absent only when the guard of that request elapsed. -/
theorem all_served [NumberText] (reachable : (serverSystem setup).Reachable app)
    (member : exchange ∈ app.exchanges) (replied : exchange.handling = .replied reply)
    (named : exchange.route = .all)
    (passed : throughLayers setup.security setup.config exchange.route exchange.request = .next) :
    ∃ ended : PluginId → Exit,
      reply = .json 200 (.object (servedMembers setup.config ended)) ∧
      SortedMembers (servedMembers setup.config ended) ∧
      (∀ name value, (servedMembers setup.config ended).lookup name = some value →
        ∃ id, isRegistered setup.config id = true ∧ name = id.asStr) ∧
      (exchange.opened.map Prod.fst).Perm (PluginId.all.filter (isRegistered setup.config)) ∧
      ∀ id r, (id, r) ∈ exchange.opened → app.exit id r = some (ended id) ∧
        ((∃ request j snapshot, ended id = .found snapshot ∧ (app.requests id)[r]? = some request ∧
            request.joined = some j ∧ j ≤ snapshot.publisher ∧
            snapshot.publisher < (app.loops id).length ∧
            (servedMembers setup.config ended).lookup id.asStr = some snapshot.body) ∨
          ∃ waited guard, ended id = .guardElapsed waited ∧ setup.config.guardTimeout = some guard ∧
            guard.nanos ≤ waited ∧ (servedMembers setup.config ended).lookup id.asStr = none) := by
  have accounted := accounted_of_reachable reachable exchange member
  rw [Exchange.Accounted, replied] at accounted
  cases accounted with
  | refused barred => simp [barred] at passed
  | inert _ handled =>
      rw [named] at handled
      cases handled
  | plugin _ other =>
      rw [named] at other
      cases other
  | @all ended _ _ own done complete =>
      have tasks := TaskEnd.byPlugin_perm own complete
      have ends := endOf_eq (tasks.nodup_iff.mpr (PluginId.all_nodup.filter _))
      refine ⟨endOf (TaskEnd.byPlugin ended), ?_, servedMembers_sorted, fun name value found => ?_,
        complete, fun id r member => ?_⟩
      · rw [Reply.json, TaskEnd.map_result, ← allStats_servedMembers tasks ends]
      · obtain ⟨id, registered, same, _⟩ :=
          mem_servedMembers.mp (servedMembers_sorted.lookup_eq_some.mp found)
        exact ⟨id, registered, same⟩
      · have registered : isRegistered setup.config id = true :=
          (List.mem_filter.mp (complete.mem_iff.mp (List.mem_map_of_mem member))).2
        obtain ⟨⟨_, exit⟩, task, rfl⟩ := List.mem_map.mp (own.mem_iff.mpr member)
        have finished := done _ _ _ task
        have same : exit = endOf (TaskEnd.byPlugin ended) id :=
          ends (id, exit) (List.mem_map_of_mem task)
        rw [← same, lookup_servedMembers registered, ← same]
        refine ⟨finished, ?_⟩
        rcases exit_of_reachable reachable registered finished with
          ⟨request, j, snapshot, rfl, found, joined, since, spawned⟩ | ⟨waited, guard, rfl, guarded, late⟩
        · exact .inl ⟨request, j, snapshot, rfl, found, joined, since, spawned, rfl⟩
        · exact .inr ⟨waited, guard, rfl, guarded, late, rfl⟩

end Ends

/-- Of the tasks of one `/all`, the first to run is the one that collects. -/
def onlyCpu : List ServerAction :=
  .receive .all { headers := [] } :: (List.range 9).map (.startTask 0) ++
    PluginId.all.map (fun id => .work id (.lookup 0)) ++
    [.work .cpu (.collect 0 (.object [])), .work .cpu (.observe 0 0), .work .cpu (.publish 0),
      .work .cpu (.setReady 0), .tick (10 ^ 10)] ++
    PluginId.all.map (fun id => .work id (.poll 0)) ++ [.work .cpu (.read 0)] ++
    (List.range 9).map (fun _ => .joinNext 0 0) ++ [.respond 0]

theorem onlyCpu_all_served : ∃ app exchange reply ended r waited,
    (@serverSystem .integers defaultServer).run (@serverSystem .integers defaultServer).init
      onlyCpu = some app ∧ exchange ∈ app.exchanges ∧ exchange.handling = .replied reply ∧
    reply = @Reply.json .integers 200 (.object (servedMembers {} ended)) ∧
    (.mem, r) ∈ exchange.opened ∧ app.exit .mem r = some (.guardElapsed waited) ∧
    (servedMembers {} ended).lookup "mem" = none := by
  have answered : ((@serverSystem .integers defaultServer).run
      (@serverSystem .integers defaultServer).init onlyCpu).map (fun app =>
        (app.exchanges.map fun exchange => (exchange.route, exchange.status,
            throughLayers defaultServer.security {} exchange.route exchange.request),
          (app.requests .mem).length, (app.exit .mem 0).map fun exit => exit.result.isOk)) =
      some ([(.all, some 200, .next)], 1, some false) := by
    decide +kernel
  obtain ⟨app, ran, shown⟩ := Option.map_eq_some_iff.mp answered
  simp only [Prod.mk.injEq] at shown
  obtain ⟨shown, alone, failed⟩ := shown
  obtain ⟨exchange, rest, all, first, _⟩ := List.map_eq_cons_iff.mp shown
  have member : exchange ∈ app.exchanges := by simp [all]
  have named : exchange.route = .all := congrArg Prod.fst first
  have passed : throughLayers defaultServer.security defaultServer.config exchange.route
      exchange.request = .next := congrArg (fun shown => shown.2.2) first
  cases replied : exchange.handling with
  | replied reply =>
      obtain ⟨ended, body, _, _, tasks, ends⟩ :=
        @all_served defaultServer app exchange reply .integers ⟨_, ran⟩ member replied named passed
      have listed : PluginId.mem ∈ exchange.opened.map Prod.fst :=
        tasks.mem_iff.mpr (List.mem_filter.mpr ⟨PluginId.mem.mem_all, by decide +kernel⟩)
      obtain ⟨⟨_, r⟩, own, rfl⟩ := List.mem_map.mp listed
      obtain ⟨finished, served | late⟩ := ends _ r own
      · obtain ⟨_, _, snapshot, found, known, _⟩ := served
        have inside := (List.getElem?_eq_some_iff.mp known).1
        obtain rfl : r = 0 := by omega
        simp [finished, found, Exit.result, Except.isOk, Except.toBool] at failed
      · obtain ⟨waited, _, elapsed, _, _, absent⟩ := late
        exact ⟨app, exchange, reply, ended, r, waited, ran, member, replied, body, own,
          by rw [finished, elapsed], absent⟩
  | _ => simp [Exchange.status, replied] at first

end GlancesRs
