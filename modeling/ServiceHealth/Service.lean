import ServiceHealth.Metrics
import ServiceHealth.Query
import ServiceHealth.Report.Encoding

/-!
# The service

What all queries share: the settings that are current, the metrics if any are kept, and the
number of tasks so far. Queries run one at a time here. A report is recorded when its check
has ended, so a query that is abandoned leaves the records of the checks that had.

## Main definitions

* `Service` — the shared state.
* `Service.ask` — a query, answered from the settings given.
* `Service.abandon` — a query whose asker goes away.
-/

namespace ServiceHealth

/-- What queries share. -/
structure Service where
  settings : Settings
  metrics : Option Metrics := none
  nextTask : Nat := 1
  deriving DecidableEq, Repr

namespace Service

/-- A service that begins with these settings. -/
def ofSettings (s : Settings) (collecting : Bool) : Service :=
  { settings := s, metrics := if collecting then some {} else none }

/-- Other settings become current. -/
def swap (v : Service) (s : Settings) : Service := { v with settings := s }

/-- There is at least one application. -/
def hasApplications (v : Service) : Bool := !v.settings.applications.isEmpty

/-- The service after checks that ended. -/
def record (v : Service) (clock : Nat → Timestamp) (cs : List Check) : Service :=
  { v with metrics := v.metrics.map fun m => cs.foldl (fun m c => m.record (c.report clock)) m }

/-- The service after tasks were dispatched for checks. -/
def countTasks (v : Service) (cs : List Check) : Service :=
  { v with nextTask := cs.foldl (fun task c => task + c.tasks.length) v.nextTask }

/-- The checks that answer a query from a snapshot, begun at time zero, and the service after
them. -/
def ask (v : Service) (probing : Probing) (clock : Nat → Timestamp) (snapshot : Settings)
    (cancelAt : Option Nat) (q : Query) : Except NotFound (List Check) × Service :=
  match q.applications snapshot with
  | .error e => (.error e, v)
  | .ok apps =>
    let cs := checkAll probing snapshot cancelAt v.nextTask 0 apps
    (.ok cs, (v.record clock cs).countTasks cs)

/-- The checks of a query whose asker goes away, and the service after them. -/
def abandon (v : Service) (probing : Probing) (clock : Nat → Timestamp) (snapshot : Settings)
    (dropAt : Nat) (q : Query) : Abandoned × Service :=
  match q.applications snapshot with
  | .error _ => (⟨[], none⟩, v)
  | .ok apps =>
    let a := checkUntil probing snapshot dropAt v.nextTask 0 apps
    (a, (v.record clock a.finished).countTasks (a.finished ++ a.interrupted.toList))

end Service

/-- The document of a list of reports. -/
def reportsToJson (rs : List ApplicationReport) : Json := .array (rs.map ApplicationReport.toJson)

/-- The document that answers a query. -/
def Query.answer (clock : Nat → Timestamp) (cs : List Check) : Query → Json
  | list => reportsToJson (cs.map (·.report clock))
  | get _ =>
    match cs with
    | c :: _ => (c.report clock).toJson
    | [] => .null

end ServiceHealth
