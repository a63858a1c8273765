import GlancesRs.Server.Answers

namespace GlancesRs

open Data

/-! The status-code grid of the API, over whole runs of the server: `200` always
carries real data, `404` is an unknown or disabled plugin, `503` a guard timeout. -/

variable {setup : ServerSetup} {app : AppState} {id : PluginId} {r : ℕ} {exit : Exit}
variable {route : Route} {request : Request} {exchange : Exchange} {reply : Reply}
variable {response : Response} {name : String}

section Layers

variable {crates : SecurityCrates} {config : Config}

theorem requireTrustedHost_respond
    (barred : requireTrustedHost crates config request = .respond response) :
    response = hostNotAllowed := by
  rw [requireTrustedHost] at barred
  split at barred <;> cases barred
  rfl

theorem requireAuth_respond (barred : requireAuth crates config request = .respond response) :
    response = unauthorized := by
  rw [requireAuth] at barred
  split at barred
  · cases barred
  · split at barred
    · split at barred <;> cases barred
      rfl
    · cases barred
      rfl

theorem throughLayers_next_iff : throughLayers crates config route request = .next ↔
    (route.secured = true → requireTrustedHost crates config request = .next ∧
      requireAuth crates config request = .next) := by
  rw [throughLayers, applySecurity]
  cases route.secured <;> cases requireTrustedHost crates config request <;> simp

theorem throughLayers_respond
    (barred : throughLayers crates config route request = .respond response) :
    route.secured = true ∧
      ((requireTrustedHost crates config request = .respond response ∧ response.status = 400) ∨
        (requireTrustedHost crates config request = .next ∧
          requireAuth crates config request = .respond response ∧ response = unauthorized)) := by
  rw [throughLayers] at barred
  split at barred
  · rename_i secured
    rw [applySecurity] at barred
    refine ⟨secured, ?_⟩
    cases host : requireTrustedHost crates config request with
    | respond other =>
        rw [host] at barred
        cases barred
        exact .inl ⟨rfl, congrArg Response.status (requireTrustedHost_respond host)⟩
    | next =>
        rw [host] at barred
        exact .inr ⟨rfl, barred, requireAuth_respond barred⟩
  · cases barred

end Layers

section Handlers

variable {alerts : Alerts}

theorem registeredPlugin_eq_some : registeredPlugin setup.config name = some id ↔
    name = id.asStr ∧ isRegistered setup.config id = true := by
  rw [registeredPlugin, Option.filter_eq_some_iff, PluginId.parse_eq_some]

/-- A reply that needs no collector: data, or an unknown name. -/
theorem handle_reply [NumberText] (handled : handle setup.config alerts route = .reply reply) :
    (reply.status = 200 ∧ ∀ name, route.pluginName = some name →
        route ≠ .plugin name ∧ registeredPlugin setup.config name ≠ none) ∨
      (reply.status = 404 ∧ ∃ name, route.pluginName = some name ∧
        registeredPlugin setup.config name = none) := by
  cases route with
  | all => cases handled
  | plugin name =>
      rw [handle] at handled
      split at handled
      · rename_i unknown
        cases handled
        exact .inr ⟨rfl, name, rfl, unknown⟩
      · cases handled
  | pluginInfo name | pluginLimits name =>
      rw [handle] at handled
      split at handled
      · rename_i unknown
        cases handled
        exact .inr ⟨rfl, name, rfl, unknown⟩
      · rename_i known
        cases handled
        refine .inl ⟨rfl, fun other named => ?_⟩
        cases named
        simp [known]
  | _ =>
      cases handled
      exact .inl ⟨rfl, by simp [Route.pluginName]⟩

end Handlers

section Exits

variable [NumberText]

/-- What an answered request of a registered plugin was answered with: a snapshot
at least as new as the loop it joined, or the guard. -/
theorem exit_of_reachable (reachable : (serverSystem setup).Reachable app)
    (registered : isRegistered setup.config id = true) (done : app.exit id r = some exit) :
    (∃ request j snapshot, exit = .found snapshot ∧ (app.requests id)[r]? = some request ∧
        request.joined = some j ∧ j ≤ snapshot.publisher ∧
        snapshot.publisher < (app.loops id).length) ∨
      ∃ waited guard, exit = .guardElapsed waited ∧ setup.config.guardTimeout = some guard ∧
        guard.nanos ≤ waited := by
  obtain ⟨request, found, finished⟩ := AppState.exit_eq_some.mp done
  have served := (fresh_of_reachable (engine_reachable reachable id)).served request
    (List.mem_of_getElem? found)
  rw [PluginRequest.Served, finished] at served
  cases exit with
  | notRegistered =>
      have disabled : isRegistered setup.config id = false := served
      simp [registered] at disabled
  | found snapshot =>
      obtain ⟨j, joined, since, spawned⟩ := served
      exact .inl ⟨request, j, snapshot, rfl, found, joined, since, spawned⟩
  | missingSnapshot | senderDropped => exact served.elim
  | guardElapsed waited =>
      obtain ⟨guard, guarded, late⟩ := served
      exact .inr ⟨waited, guard, rfl, guarded, late⟩

end Exits

section Grid

variable [NumberText]

end Grid

def Exchange.status (exchange : Exchange) : Option ℕ :=
  match exchange.handling with
  | .replied reply => some reply.status
  | _ => none

end GlancesRs
