import ServiceHealth.Proofs.Check.Members
import ServiceHealth.Proofs.Json.Reading
import ServiceHealth.Proofs.Settings
import ServiceHealth.Server.Handler

/-!
# Answers from one snapshot

What the handler answers when the settings stay as they are, by the query that is routed and by
what the settings hold: the checks of all applications, the check of one, or that there is no
such application.

## Main results

* `Service.ask_get_eq`, `Service.ask_get_eq_error` — the query for a name.
* `Handler.handle_of_route`, `Handler.handle_of_no_applications` — a routed request with and
  without applications.
* `Handler.serve_list_ne_empty` — a list of reports is empty only without applications.
-/

namespace ServiceHealth

/-! ### Queries -/

/-- That there is no application of a name is read back. -/
theorem NotFound.parseValue?_toJson (e : NotFound) :
    Json.parseValue? e.toJson.render = some (.object [(some "message", .text e.message)]) := by
  have hlimits : e.toJson.withinLimits = true := rfl
  rw [(Json.isDocument_render e.toJson).parseValue?_eq, if_pos hlimits]
  rfl

namespace Service

variable (v : Service) (probing : Probing) (clock : Nat → Timestamp) (s : Settings)
  (cancelAt : Option Nat) {name : String}

/-- The query for a name that is found makes the check of its application. -/
theorem ask_get_eq {app : Application} (h : s.application? name = some app) :
    let c := Check.begin probing s cancelAt v.nextTask 0 app
    v.ask probing clock s cancelAt (.get name) =
      (.ok [c], (v.record clock [c]).countTasks [c]) := by
  intro c
  rw [ask, Query.applications, h]
  rfl

/-- The query for a name that is not found makes no check and changes nothing. -/
theorem ask_get_eq_error (h : s.application? name = none) :
    v.ask probing clock s cancelAt (.get name) = (.error ⟨name⟩, v) := by
  rw [ask, Query.applications, h]

end Service

/-! ### Requests -/

namespace Server.Handler

variable (h : Handler) (v : Service)

/-- The answer to the query for a name that is found is the report of its application. -/
theorem serve_get_eq {name : String} {app : Application}
    (hfound : v.settings.application? name = some app) :
    (h.serve v (.get name)).1 = .json 200
      ((Check.begin h.probing v.settings none v.nextTask 0 app).report h.clock).toJson := by
  rw [serve, v.ask_get_eq h.probing h.clock v.settings none hfound]
  rfl

/-- The answer to the query for a name that is not found tells the name. -/
theorem serve_get_eq_error {name : String} (hmissing : v.settings.application? name = none) :
    h.serve v (.get name) = (.json 404 (NotFound.toJson ⟨name⟩), [], v) := by
  rw [serve, v.ask_get_eq_error h.probing h.clock v.settings none hmissing]
  rfl

/-- The answer to the query for all applications lists the report of each. -/
theorem serve_list_eq :
    (h.serve v .list).1 = .json 200 (reportsToJson
      ((checkAll h.probing v.settings none v.nextTask 0 v.settings.applications).map
        (·.report h.clock))) := rfl

/-- The list of the reports is empty only without applications. -/
theorem serve_list_ne_empty (happs : v.settings.applications ≠ []) :
    (h.serve v .list).1 ≠ .json 200 (.array []) := by
  intro heq
  rw [serve_list_eq] at heq
  have hdoc := Json.render_inj (congrArg Response.body heq)
  have hreports : ((checkAll h.probing v.settings none v.nextTask 0 v.settings.applications).map
      (·.report h.clock)).map ApplicationReport.toJson = [] := Json.array.inj hdoc
  have hlength := congrArg List.length hreports
  rw [List.length_map, List.length_map, length_checkAll] at hlength
  exact happs (List.eq_nil_of_length_eq_zero hlength)

variable {r : Request} {q : Query}

/-- Without applications a routed request finds nothing, whatever its method. -/
theorem handle_of_no_applications (hroute : route? h.basePath r.target.path = some q)
    (happs : v.settings.applications = []) : h.handle v r = (.notFound, [], v) := by
  have hgate : gate h.basePath v.settings r = .error .notFound := by
    simp [gate, hroute, happs]
  rw [handle, hgate]

/-- With applications a routed request that asks for a resource is answered by the query. -/
theorem handle_of_route (hroute : route? h.basePath r.target.path = some q) (hget : r.method = .get)
    (happs : v.settings.applications ≠ []) : h.handle v r = h.serve v q := by
  have hgate : gate h.basePath v.settings r = .ok q := by
    simp [gate, hroute, hget, happs]
  rw [handle, hgate]

end Server.Handler

end ServiceHealth
