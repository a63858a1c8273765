import GlancesRs.Alerts.Pruning
import GlancesRs.Linux.Diskstats
import GlancesRs.Plugins.DefaultHide
import GlancesRs.Plugins.Visible
import GlancesRs.Server.AlertHistory

namespace GlancesRs

open Data

/-! An item that the configuration hides never leaves its plugin: no body of the API
lists it, and no event is journaled about it. -/

variable {setup : ServerSetup} {app : AppState} {isMatch : setup.crates.Regex → String → Bool}

section Observing

variable [NumberText] {visible : String → Prop} {config : Config} {id : PluginId}
variable {payload published : Json} {pkField name : String} {data : List Json}

/-- The levels of one pass are kept under the keys of items it has seen. -/
theorem foldl_levels_keys {start : Scan} {k : String} {entry : Json}
    (listed : (k, entry) ∈ (data.foldl (Scan.item config id pkField) start).levels) :
    (k, entry) ∈ start.levels ∨ ∃ item ∈ data, primaryKey pkField item = some k := by
  induction data generalizing start with
  | nil => exact .inl listed
  | cons item rest ih =>
      rcases ih listed with before | ⟨later, inside, keyed⟩
      · cases keyed : primaryKey pkField item with
        | none =>
            rw [Scan.item, keyed] at before
            exact .inl before
        | some pk =>
            simp only [Scan.item, keyed] at before
            split at before
            · exact .inl before
            · rcases mem_insertMember before with same | former
              · cases same
                exact .inr ⟨item, List.mem_cons_self, keyed⟩
              · exact .inl former
      · exact .inr ⟨later, List.mem_cons_of_mem _ inside, keyed⟩

theorem ShowsOnly.primaryKey (shows : ShowsOnly visible id payload) (keyed : id.keyField = some pkField)
    {item : Json} (inside : item ∈ GlancesRs.items payload) (named : primaryKey pkField item = some name) :
    visible name := by
  obtain ⟨own, at_, seen⟩ := shows.items pkField keyed item inside
  rw [GlancesRs.primaryKey, at_] at named
  cases named
  exact seen

theorem ShowsOnly.withLevels (shows : ShowsOnly visible id payload)
    (written : withLevels config id payload = some published) : ShowsOnly visible id published := by
  rw [GlancesRs.withLevels] at written
  split at written
  · have same : GlancesRs.items published = GlancesRs.items payload := by
      rw [GlancesRs.items, GlancesRs.items, Json.setKey?_get?_of_ne (by decide) written]
    refine ⟨?_, fun collection levels held => ?_⟩
    · rw [same]
      exact shows.items
    · obtain ⟨pkField, keyed⟩ := Option.isSome_iff_exists.mp collection
      rw [Json.setKey?_get?_self written] at held
      cases held
      intro name entry listed
      rw [scan_items keyed rfl] at listed
      rcases foldl_levels_keys listed with none_yet | ⟨item, inside, named⟩
      · cases none_yet
      · exact shows.primaryKey keyed inside named
  · cases written
    exact shows

/-- What a cycle journals is about items of its payload. -/
theorem Entry.journals_visible {entry : Entry} {event : Event}
    (ordered : (entry.committed.map Event.stateKey).Sublist
      (watchedTriples entry.cycle.plugin entry.cycle.payload))
    (shows : ShowsOnly visible entry.cycle.plugin entry.cycle.payload)
    (journaled : event ∈ entry.committed) (collection : event.plugin.keyField.isSome = true) :
    ∃ name, event.key = some name ∧ visible name := by
  obtain ⟨own, listed, _⟩ := mem_watchedTriples.mp (ordered.subset (List.mem_map_of_mem journaled))
  have own : event.plugin = entry.cycle.plugin := own
  rw [own] at collection
  obtain ⟨pkField, keyed⟩ := Option.isSome_iff_exists.mp collection
  simp only [itemKeys, keyed] at listed
  obtain ⟨name, found, same⟩ := List.mem_map.mp listed
  obtain ⟨item, inside, named⟩ := List.mem_filterMap.mp found
  exact ⟨name, same.symm, shows.primaryKey keyed inside named⟩

end Observing

section Served

variable [NumberText] {labels : List ServerAction}

/-- What a plugin collects, it collects with the filters of the configuration. -/
def ServerAction.CollectsFiltered (setup : ServerSetup)
    (isMatch : setup.crates.Regex → String → Bool) (action : ServerAction) : Prop :=
  ∀ id l value, action = .work id (.collect l value) →
    CollectedBy setup.crates isMatch setup.config id value

theorem showsOnly_of_exit
    (collects : ∀ label ∈ labels, label.CollectsFiltered setup isMatch)
    (ran : (serverSystem setup).run (serverSystem setup).init labels = some app) {id : PluginId} {r : ℕ}
    {snapshot : Snapshot} (done : app.exit id r = some (.found snapshot)) :
    ShowsOnly (Visible setup.crates isMatch setup.config id) id snapshot.body := by
  have carries : app.Carries
      (fun id => ShowsOnly (Visible setup.crates isMatch setup.config id) id)
      (fun id => ShowsOnly (Visible setup.crates isMatch setup.config id) id) := by
    refine TransitionSystem.run_invariant_of_labels
      (fun label member before after carries taken => (AppState.step_moves taken).carries
        (fun id l value same => (collects label member id l value same).showsOnly)
        (fun _ _ _ _ _ _ _ _ _ shows called => shows.withLevels (observe_value called))
        carries) AppState.carries_initial ran
  exact carries.exit done

/-- Whatever order the tasks of the server run in: every item and every level it serves,
alone or in `/all`, and every event it journals about an item, is of one that the lists
of the configuration let through. -/
theorem hidden_never_served (collects : ∀ label ∈ labels, label.CollectsFiltered setup isMatch)
    (ran : (serverSystem setup).run (serverSystem setup).init labels = some app) :
    (∀ exchange ∈ app.exchanges, ∀ reply, exchange.handling = .replied reply → reply.status = 200 →
      (∀ name, exchange.route = .plugin name → ∃ id body, name = id.asStr ∧ reply = .json 200 body ∧
        ShowsOnly (Visible setup.crates isMatch setup.config id) id body) ∧
      (exchange.route = .all → ∃ members, reply = .json 200 (.object members) ∧
        SortedMembers members ∧ ∀ name body, (name, body) ∈ members → ∃ id, name = id.asStr ∧
          ShowsOnly (Visible setup.crates isMatch setup.config id) id body)) ∧
    ∀ event ∈ app.committed, event.plugin.keyField.isSome = true →
      ∃ name, event.key = some name ∧ Visible setup.crates isMatch setup.config event.plugin name := by
  refine ⟨fun exchange member reply replied ok =>
    bodies_of_reply (fun _ _ _ done => showsOnly_of_exit collects ran done) ⟨labels, ran⟩ member replied ok,
    fun event journaled collection => ?_⟩
  obtain ⟨cycles, journal, records, _⟩ := AppState.records_run .initial
    (fun label member id l value same => (collects label member id l value same).showsOnly)
    AppState.records_initial ran
  rw [records.committed, Journal.committed] at journaled
  obtain ⟨entry, logged, committed⟩ := List.mem_flatMap.mp journaled
  have ordered := (alertsSystem_complete records.ran).ordered entry logged
  have listed : entry.cycle ∈ cycles := by
    have all := alertsSystem_cycles records.ran
    simp only [alertsSystem, List.map_nil, List.nil_append] at all
    rw [← all]
    exact List.mem_map_of_mem logged
  have own : event.plugin = entry.cycle.plugin :=
    (mem_watchedTriples.mp (ordered.subset (List.mem_map_of_mem committed))).1
  rw [own]
  exact Entry.journals_visible ordered (records.sources _ listed).2.2 committed collection

end Served

/-- The default configuration, with a search for its patterns. -/
def searchingServer : ServerSetup where
  crates := patternCrates
  security := .decoding "" ""
  config := {}
  hostname := "h"

def defaultDisks : CollectionPlugin patternCrates :=
  (DiskioPlugin.new patternCrates {}).get (by decide +kernel)

/-- One disk and one loop device, both idle. -/
def idleDisks : Reading (Option (HashMap String DiskIoCounters)) where
  instant := 0
  value := parseDiskstats
    "8 0 sda 9 0 8 4 9 0 8 4 0 1 2\n7 0 loop0 9 0 8 4 9 0 8 4 0 1 2\n".toList

def oneDisk : List ServerAction :=
  [.receive (.plugin "diskio") { headers := [] }, .work .diskio (.lookup 0),
    .work .diskio (.collect 0 ((DiskioPlugin.sampler patternIsMatch defaultDisks).published []
      { warmUp := idleDisks, main := idleDisks })),
    .work .diskio (.observe 0 0), .work .diskio (.publish 0), .work .diskio (.setReady 0),
    .work .diskio (.poll 0), .work .diskio (.read 0), .respond 0]

theorem oneDisk_hidden_never_served : ∃ app exchange reply id body,
    (@serverSystem .integers searchingServer).run (@serverSystem .integers searchingServer).init
      oneDisk = some app ∧ exchange ∈ app.exchanges ∧ exchange.handling = .replied reply ∧
    reply = @Reply.json .integers 200 body ∧
    ShowsOnly (Visible patternCrates patternIsMatch {} id) id body := by
  have answered : ((@serverSystem .integers searchingServer).run
      (@serverSystem .integers searchingServer).init oneDisk).map (fun app =>
        app.exchanges.map fun exchange => (exchange.route, exchange.status)) =
      some [(.plugin "diskio", some 200)] := by
    decide +kernel
  obtain ⟨app, ran, shown⟩ := Option.map_eq_some_iff.mp answered
  obtain ⟨exchange, rest, all, first, _⟩ := List.map_eq_cons_iff.mp shown
  have member : exchange ∈ app.exchanges := by simp [all]
  have collects : ∀ label ∈ oneDisk, label.CollectsFiltered searchingServer patternIsMatch := by
    intro label inside id l value same
    subst same
    simp only [oneDisk, List.mem_cons, ServerAction.work.injEq, Action.collect.injEq, reduceCtorEq,
      List.not_mem_nil, and_false, or_false, false_or] at inside
    obtain ⟨rfl, rfl, rfl⟩ := inside
    exact .diskio (Option.some_get _).symm
  cases replied : exchange.handling with
  | replied reply =>
      simp only [Exchange.status, replied, Prod.mk.injEq, Option.some.injEq] at first
      obtain ⟨named, ok⟩ := first
      obtain ⟨id, body, _, same, shows⟩ := ((@hidden_never_served searchingServer app patternIsMatch
        .integers oneDisk collects ran).1 exchange member reply replied ok).1 "diskio" named
      exact ⟨app, exchange, reply, id, body, ran, member, replied, same, shows⟩
  | _ => simp [Exchange.status, replied] at first

end GlancesRs
