import ServiceHealth.Proofs.Metrics.Tally
import ServiceHealth.Proofs.Server.Flight
import ServiceHealth.Proofs.Service.Call

/-!
# What a service does, and what it counts

Over its life a service answers queries and requests, one after another, and other settings are
stored between them and during them; a signal may fire, a probe may panic, and an asker may go away
before the answer. Each of these activities adds the reports that it completed to those before, and
leaves the metrics that recording these leaves (`Activity.metrics_after`). So at any time the
metrics are the tallies of all reports so far, and an activity that completes no report changes
nothing.

`Call.Sound.of_answered` relates the calls of this module to the queries that are answered at once,
and `Server.Flight.replay_handle` its requests to those that are handled at once.

## Main definitions

* `Activity`, `Activity.after`, `Activity.completed` — a query, a request or a store, the service
  after it, and the reports that it completed.
* `Course`, `Course.during` — a service and its reports so far, from its start.

## Main results

* `Course.metrics_tally_completed_reports` — the metrics at any time.
-/

namespace ServiceHealth

open Server

/-- What a service does: other settings are stored, or a query or a request is answered, with all
that happens from its start to its end. If it has not been answered then, its asker has gone. -/
inductive Activity
  | store (s : Settings)
  | query (w : Call.World) (q : Query) (events : List Call.Event)
  | request (h : Handler) (r : Request) (events : List Flight.Event)

namespace Activity

/-- The service after an activity. -/
def after (v : Service) : Activity → Service
  | store s => v.swap s
  | query w q events => (Call.during w v q events).service
  | request h r events => (Flight.during h v r events).service

/-- The reports that an activity completes. -/
def completed (v : Service) : Activity → List ApplicationReport
  | store _ => []
  | query w q events => (Call.during w v q events).reports
  | request h r events => (Flight.during h v r events).finished.map (·.report h.clock)

/-- **Step.** An activity records the reports that it completes, and nothing else. -/
theorem metrics_after (v : Service) (a : Activity) :
    (a.after v).metrics = v.metrics.map fun m => (a.completed v).foldl Metrics.record m := by
  cases a with
  | store s => exact Option.map_id'.symm
  | query w q events =>
    have hx := Call.sound_during w v q events
    rw [after, completed, hx.metrics, hx.reports, Service.metrics_record]
  | request h r events =>
    have hf := Flight.sound_during h v r events
    rw [after, completed, hf.metrics, Service.metrics_record]

/-- An activity that completes no report leaves the metrics as they are. -/
theorem metrics_after_of_nil {v : Service} {a : Activity} (hnone : a.completed v = []) :
    (a.after v).metrics = v.metrics := by
  rw [metrics_after, hnone]
  exact Option.map_id'

/-- A query for an application that does not exist completes no report. -/
theorem completed_of_notFound {v : Service} {w : Call.World} {q : Query}
    {events : List Call.Event} {e : NotFound}
    (hanswer : (Call.during w v q events).standing = .answered (.error e)) :
    (query w q events).completed v = [] := by
  have hx := Call.sound_during w v q events
  rcases hx.answered _ hanswer with ⟨-, -, hnone⟩ | hok
  · rw [completed, hx.reports, hnone, List.map_nil]
  · cases hok

/-- A request that is answered without a document of reports completes none. -/
theorem completed_of_refused {v : Service} {h : Handler} {r : Request}
    {events : List Flight.Event} {response : Response}
    (hanswer : (Flight.during h v r events).standing = .answered response)
    (hstatus : response.status ≠ 200) : (request h r events).completed v = [] := by
  have hreached := (Flight.sound_during h v r events).reached
  rw [hanswer] at hreached
  have hnone : (Flight.during h v r events).finished = [] := by
    generalize (Flight.during h v r events).finished = cs at hreached ⊢
    generalize (Flight.during h v r events).probes.map (·.target) = targets at hreached
    -- A request that has been answered was refused, or its checks are those of the answer.
    cases hreached with
    | refused => rfl
    | answered => exact absurd rfl hstatus
  rw [completed, hnone, List.map_nil]

end Activity

/-- A service and the reports that it has completed so far. -/
structure Course where
  service : Service
  reports : List ApplicationReport := []

namespace Course

/-- One more activity. -/
def perform (c : Course) (a : Activity) : Course :=
  ⟨a.after c.service, c.reports ++ a.completed c.service⟩

/-- A service that keeps metrics, from its start with some settings through its activities. -/
def during (s : Settings) (activities : List Activity) : Course :=
  activities.foldl perform ⟨.ofSettings s true, []⟩

/-- **Run.** The metrics are those that all completed reports leave. -/
theorem metrics_during (s : Settings) (activities : List Activity) :
    (during s activities).service.metrics =
      some ((during s activities).reports.foldl Metrics.record {}) := by
  induction activities using List.reverseRecOn with
  | nil => rfl
  | append_singleton activities a ih =>
    rw [during, List.foldl_append]
    show (a.after (during s activities).service).metrics = some (List.foldl _ _
      ((during s activities).reports ++ a.completed (during s activities).service))
    rw [Activity.metrics_after, ih, Option.map_some, List.foldl_append]

/-- **The metrics are the tallies of the completed reports.** At any time they count each entry of a
member in all reports so far under its name and its canonical status, the histogram of a member
has one sample for each of these, and the gauges of an application show its last report; there is
nothing else. An activity without a report changes nothing: a query for an application that does
not exist, or a request that is answered with any status but 200. -/
theorem metrics_tally_completed_reports (s : Settings) (activities : List Activity) :
    let c := during s activities
    (∃ m, c.service.metrics = some m ∧ m.Tallies c.reports) ∧
    (∀ w q events e, (Call.during w c.service q events).standing = .answered (.error e) →
      (c.perform (.query w q events)).reports = c.reports ∧
      (c.perform (.query w q events)).service.metrics = c.service.metrics) ∧
    (∀ h r events response, (Flight.during h c.service r events).standing = .answered response →
      response.status ≠ 200 →
      (c.perform (.request h r events)).reports = c.reports ∧
      (c.perform (.request h r events)).service.metrics = c.service.metrics) := by
  intro c
  refine ⟨⟨_, metrics_during s activities, Metrics.tallies_record c.reports⟩, ?_, ?_⟩
  · intro w q events e hanswer
    have hnone := Activity.completed_of_notFound hanswer
    exact ⟨by rw [perform, hnone, List.append_nil], Activity.metrics_after_of_nil hnone⟩
  · intro h r events response hanswer hstatus
    have hnone := Activity.completed_of_refused hanswer hstatus
    exact ⟨by rw [perform, hnone, List.append_nil], Activity.metrics_after_of_nil hnone⟩

/-- A list of two applications that share a member, with a store between its checks and a probe that
panics, and after other settings were stored a request for one of them: the texts of the shared
member are counted as healthy twice and as unknown once. A name without an application and a method
that is not allowed then change nothing. -/
theorem metrics_tally_completed_reports_of_shared_member :
    let s : Settings :=
      { healthChecks := [⟨"a", "http://a"⟩, ⟨"b", "http://b"⟩]
        applications := [⟨"First", ["a", "b"]⟩, ⟨"Second", ["a", "ghost"]⟩] }
    let w : Call.World :=
      { probing := fun task name uri start _ =>
          { endsAt := start
            outcome := if task = 2 then .panic (some "boom")
              else .report ⟨name, uri, ⟨if task = 1 then "hEALTHY" else "Warming"⟩, 5, none⟩ }
        clock := fun _ => default }
    let h : Handler := ⟨"/api", w.probing, w.clock⟩
    let listing : List Call.Event :=
      [.advance, .advance, .advance, .advance, .ends 1, .store {}, .ends 0, .advance, .store s,
        .advance, .advance, .advance, .ends 0, .advance, .advance]
    let serving : List Flight.Event :=
      [.advance 0, .advance 0,
        .turn 0 { now := 3, ends := some (.report ⟨"a", "http://a", ⟨"healthy"⟩, 3, none⟩) },
        .store {}, .advance 3]
    let c := during s [.query w .list listing, .store s,
      .request h ⟨.get, ⟨"/api/applications/Second"⟩⟩ serving, .store s]
    c.reports.map (·.name) = ["First", "Second", "Second"] ∧
    (∃ m, c.service.metrics = some m ∧
      (("a", .healthy), 2) ∈ m.probes.entries ∧ (("a", .unknown), 1) ∈ m.probes.entries ∧
      (("b", .unreachable), 1) ∈ m.probes.entries ∧
      ((.status, "First"), 2) ∈ m.gauges.entries ∧ ((.status, "Second"), 0) ∈ m.gauges.entries) ∧
    (c.perform (.query w (.get "Third") [.advance])).service.metrics = c.service.metrics ∧
    (c.perform (.request h ⟨⟨"DELETE"⟩, ⟨"/api/applications"⟩⟩ [.advance 0])).service.metrics =
      c.service.metrics := by
  intro s w h listing serving c
  obtain ⟨⟨m, hm, htallies⟩, hnotFound, hrefused⟩ := metrics_tally_completed_reports s
    [.query w .list listing, .store s,
      .request h ⟨.get, ⟨"/api/applications/Second"⟩⟩ serving, .store s]
  have hmissing : (Call.during w c.service (.get "Third") [.advance]).standing =
      .answered (.error ⟨"Third"⟩) := by decide +kernel
  have hgate : gate h.basePath c.service.settings ⟨⟨"DELETE"⟩, ⟨"/api/applications"⟩⟩ =
      .error .methodNotAllowed := by decide +kernel
  have hmethod : (Flight.during h c.service ⟨⟨"DELETE"⟩, ⟨"/api/applications"⟩⟩
      [.advance 0]).standing = .answered .methodNotAllowed := by
    simp only [Flight.during, Flight.start, List.foldl_cons, List.foldl_nil, Flight.react,
      Flight.advance, hgate]
  refine ⟨by decide +kernel, ⟨m, hm, ?_, ?_, ?_, ?_, ?_⟩, ?_, ?_⟩
  · exact (htallies.probes ..).mpr (by decide +kernel)
  · exact (htallies.probes ..).mpr (by decide +kernel)
  · exact (htallies.probes ..).mpr (by decide +kernel)
  · exact (htallies.gauges ..).mpr ⟨⟨"First", default, [⟨"a", "http://a", ⟨"hEALTHY"⟩, 5, none⟩,
      .unreachable "b" "http://b" 0 "task 2 panicked with message \"boom\""]⟩,
      by decide +kernel, .unhealthy (by decide +kernel)⟩
  · exact (htallies.gauges ..).mpr ⟨⟨"Second", default, [⟨"a", "http://a", ⟨"healthy"⟩, 3, none⟩]⟩,
      by decide +kernel, .healthy (by decide +kernel)⟩
  · exact (hnotFound _ _ _ _ hmissing).2
  · exact (hrefused _ _ _ _ hmethod (by decide)).2

end Course

end ServiceHealth
