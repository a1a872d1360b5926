import ServiceHealth.Proofs.Check.Outcomes
import ServiceHealth.Proofs.Server.Handler
import ServiceHealth.Proofs.Server.Router

/-!
# A list and its parts

The list of all applications is answered by going through them, the report of one by looking its
name up. With valid settings both come to the same: the list holds, text for text, the answers to
one request for each application, but for what a check measures of itself, and it leaves the same
service behind. What is measured shows in the moment of each check and, where a probe panicked, in
the entry of its member.

## Main definitions

* `handleAll` — requests answered one after another.
* `Handler.HasOutcome` — a handler whose probes end as their members say.

## Main results

* `handleAll_gets` — the answers to one request for each application, and the service after them.
* `list_agrees_with_gets` — the list is made of these answers and leaves the same service.
-/

namespace ServiceHealth.Server

open Text

/-- The answers to requests one after another, each by its own handler, and the service after
them. -/
def handleAll (v : Service) : List (Handler × Request) → List Response × Service
  | [] => ([], v)
  | (h, r) :: rest =>
    let (response, _, after) := h.handle v r
    let (responses, last) := handleAll after rest
    (response :: responses, last)

/-- A handler behind a base path whose probes have the outcomes of their members. -/
structure Handler.HasOutcome (h : Handler) (base : String)
    (outcome : (name uri : String) → Outcome) : Prop where
  basePath : h.basePath = base
  probing : h.probing.HasOutcome outcome

/-- The request for all applications. -/
def listRequest (base : String) : Request := ⟨.get, ⟨base ++ "/applications"⟩⟩

/-- The request for the application whose name is encoded so. -/
def getRequest (base encoded : String) : Request :=
  ⟨.get, ⟨base ++ "/applications/" ++ encoded⟩⟩

variable {base : String} {outcome : (name uri : String) → Outcome} {h : Handler} {v : Service}

/-- The answer to the request for all applications lists the reports of the outcomes. -/
theorem handle_listRequest (hh : h.HasOutcome base outcome)
    (happs : v.settings.applications ≠ []) :
    ∃ ms : List Measured, ms.length = v.settings.applications.length ∧
      (let rs := List.zipWith (v.settings.reportFrom outcome) v.settings.applications ms
       (h.handle v (listRequest base)).1 = .json 200 (reportsToJson rs) ∧
       (h.handle v (listRequest base)).2.2 = v.afterReports rs
        (v.settings.applications.map fun app => (v.settings.targets app).length).sum) ∧
      ∀ delay, h.probing.HasDelay delay →
        ms.map (·.elapsedMs) = v.settings.applications.map (v.settings.duration delay) := by
  obtain ⟨ms, hlength, hreports, hdelays⟩ := exists_map_report_checkAll hh.probing h.clock
    v.settings v.nextTask 0 v.settings.applications
  have hroute : route? h.basePath (listRequest base).target.path = some .list := by
    rw [hh.basePath]
    exact route?_list base
  refine ⟨ms, hlength, ⟨?_, ?_⟩, hdelays⟩
  · rw [h.handle_of_route v hroute rfl happs, h.serve_list_eq v, hreports]
  · rw [h.handle_of_route v hroute rfl happs, ← hreports,
      ← sum_length_tasks_checkAll h.probing v.settings none v.nextTask 0 v.settings.applications]
    exact v.record_countTasks h.clock _

/-- **Step.** The answer to the request for an application is its report of the outcomes. -/
theorem handle_getRequest (hh : h.HasOutcome base outcome) (hvalid : v.settings.validate = .ok ())
    {app : Application} (happ : app ∈ v.settings.applications) {encoded : String}
    (hencoded : Percent.Encodes (Percent.bytes app.name) (Percent.bytes encoded)) :
    ∃ m : Measured,
      (let r := v.settings.reportFrom outcome app m
       (h.handle v (getRequest base encoded)).1 = .json 200 r.toJson ∧
       (h.handle v (getRequest base encoded)).2.2 =
        v.afterReports [r] (v.settings.targets app).length) ∧
      ∀ delay, h.probing.HasDelay delay → m.elapsedMs = v.settings.duration delay app := by
  obtain ⟨-, ⟨hnames, -⟩, -⟩ := Settings.validate_eq_ok_iff.mp hvalid
  have hfound : v.settings.application? app.name = some app :=
    (Settings.application?_eq_some_iff hvalid).mpr ⟨happ, rfl⟩
  have hroute : route? h.basePath (getRequest base encoded).target.path = some (.get app.name) := by
    rw [hh.basePath]
    exact route?_name base (hnames app happ) hencoded
  have hhandle := h.handle_of_route v hroute rfl (List.ne_nil_of_mem happ)
  set c := Check.begin h.probing v.settings none v.nextTask 0 app with hc
  have hreport := Check.report_begin hh.probing h.clock v.settings v.nextTask 0 app
  refine ⟨⟨h.clock 0, c.endsAt - 0, v.nextTask⟩, ⟨?_, ?_⟩, ?_⟩
  · rw [hhandle, h.serve_get_eq v hfound, hreport]
  · have hservice : (h.serve v (.get app.name)).2.2 = (v.record h.clock [c]).countTasks [c] := by
      rw [Handler.serve, v.ask_get_eq h.probing h.clock v.settings none hfound]
    rw [hhandle, hservice, v.record_countTasks, ← hreport,
      ← Check.length_tasks_begin h.probing v.settings none v.nextTask 0 app]
    rfl
  · intro delay hdelay
    show c.endsAt - 0 = v.settings.duration delay app
    rw [hc, Check.endsAt_begin_of_hasDelay hdelay, Nat.zero_add, Nat.sub_zero]

/-- **Run.** The answers to one request for each of some applications are their reports of the
outcomes. -/
theorem handleAll_gets {apps : List Application} {gets : List (Handler × String)}
    (hgets : List.Forall₂ (fun app get => get.1.HasOutcome base outcome ∧
      Percent.Encodes (Percent.bytes app.name) (Percent.bytes get.2)) apps gets)
    (hvalid : v.settings.validate = .ok ()) (happs : ∀ app ∈ apps, app ∈ v.settings.applications) :
    ∃ ms : List Measured, ms.length = apps.length ∧
      (let rs := List.zipWith (v.settings.reportFrom outcome) apps ms
       handleAll v (gets.map fun get => (get.1, getRequest base get.2)) =
        (rs.map fun r => .json 200 r.toJson,
          v.afterReports rs (apps.map fun app => (v.settings.targets app).length).sum)) ∧
      ∀ delay, (∀ get ∈ gets, get.1.probing.HasDelay delay) →
        ms.map (·.elapsedMs) = apps.map (v.settings.duration delay) := by
  induction hgets generalizing v with
  | nil => exact ⟨[], rfl, congrArg (Prod.mk []) v.afterReports_nil.symm, fun _ _ => rfl⟩
  | @cons app get apps gets hget _ ih =>
    rw [List.forall_mem_cons] at happs
    obtain ⟨m, ⟨hanswer, hafter⟩, hdelay⟩ := handle_getRequest hget.1 hvalid happs.1 hget.2
    obtain ⟨ms, hlength, hanswers, hdelays⟩ :=
      ih (v := v.afterReports [v.settings.reportFrom outcome app m]
        (v.settings.targets app).length) hvalid happs.2
    refine ⟨m :: ms, by rw [List.length_cons, List.length_cons, hlength], ?_, ?_⟩
    · simp only [List.map_cons, handleAll, hanswer, hafter, hanswers, List.zipWith_cons_cons,
        List.sum_cons, Service.afterReports_append, List.singleton_append]
      rfl
    · intro delay hall
      rw [List.forall_mem_cons] at hall
      rw [List.map_cons, List.map_cons, hdelay delay hall.1, hdelays delay hall.2]
      rfl

/-- **A list and its parts.** With valid settings and any application, behind handlers whose probes
have the outcomes of their members, the answer to the request for all applications is an array
whose elements are, in order, the reports of the outcomes, and so are, as text, the bodies of the
answers to one request for each application, in any encoding of its name: an element and its
body differ in nothing but what the two checks measured. The request for the list leaves the
service that the others leave one after another, but for the durations of the members whose probes
panic; these too are the same if the probes take the delays of their members. -/
theorem list_agrees_with_gets (hh : h.HasOutcome base outcome)
    (hvalid : v.settings.validate = .ok ()) (happs : v.settings.applications ≠ [])
    {gets : List (Handler × String)}
    (hgets : List.Forall₂ (fun app get => get.1.HasOutcome base outcome ∧
      Percent.Encodes (Percent.bytes app.name) (Percent.bytes get.2))
      v.settings.applications gets) :
    let s := v.settings
    let listed := h.handle v (listRequest base)
    let got := handleAll v (gets.map fun get => (get.1, getRequest base get.2))
    ∃ ms ms' : List Measured,
      ms.length = s.applications.length ∧ ms'.length = s.applications.length ∧
      listed.1 = ⟨200, some "application/json", "[" ++ ",".intercalate
        (List.zipWith (fun app m => (s.reportFrom outcome app m).toJson.render)
          s.applications ms) ++ "]"⟩ ∧
      got.1 = List.zipWith (fun app m =>
        ⟨200, some "application/json", (s.reportFrom outcome app m).toJson.render⟩)
          s.applications ms' ∧
      listed.2.2.settings = got.2.settings ∧ listed.2.2.nextTask = got.2.nextTask ∧
      Option.Rel (Metrics.AgreeExcept (s.Panics outcome s.applications))
        listed.2.2.metrics got.2.metrics ∧
      ((∀ name, ¬ s.Panics outcome s.applications name) → listed.2.2 = got.2) ∧
      ∀ delay, h.probing.HasDelay delay → (∀ get ∈ gets, get.1.probing.HasDelay delay) →
        ms.map (·.elapsedMs) = ms'.map (·.elapsedMs) ∧ listed.2.2 = got.2 := by
  intro s listed got
  obtain ⟨ms, hlength, ⟨hlisted, hafter⟩, hdelays⟩ := handle_listRequest hh happs
  obtain ⟨ms', hlength', hgot, hdelays'⟩ := handleAll_gets hgets hvalid fun _ happ => happ
  have helapsed (delay : (name uri : String) → Nat) (hdelay : h.probing.HasDelay delay)
      (hall : ∀ get ∈ gets, get.1.probing.HasDelay delay) :
      ms.map (·.elapsedMs) = ms'.map (·.elapsedMs) :=
    (hdelays delay hdelay).trans (hdelays' delay hall).symm
  refine ⟨ms, ms', hlength, hlength', ?_⟩
  simp only [listed, got, hlisted, hafter, hgot]
  refine ⟨?_, ?_, rfl, rfl, ?_, ?_, ?_⟩
  · rw [Response.json, reportsToJson, Json.render_array, List.map_map, List.map_zipWith]
    rfl
  · rw [List.map_zipWith]
    rfl
  · exact v.metrics_afterReports _ (Settings.agreeExcept_zipWith_reportFrom hlength hlength'
      (.inr fun _ hpanics => hpanics))
  · intro hnone
    exact v.afterReports_eq _
      (Settings.agreeExcept_zipWith_reportFrom hlength hlength' (.inr hnone))
  · intro delay hdelay hall
    have heq := helapsed delay hdelay hall
    exact ⟨heq, v.afterReports_eq _
      (Settings.agreeExcept_zipWith_reportFrom hlength hlength' (.inl heq))⟩

/-- Two applications with a member whose probe panics, one of them with a slash in its name, and
a later clock for the single requests: the list leaves the service that they leave. -/
theorem list_agrees_with_gets_of_panic :
    let s : Settings :=
      { healthChecks := [⟨"a", "http://a"⟩, ⟨"b", "http://b"⟩]
        applications := [⟨"A/1", ["a", "b"]⟩, ⟨"B", ["b"]⟩] }
    let plan : (name uri : String) → Prober.Plan := fun name uri =>
      { delay := 30
        outcome := if name = "b" then .panic (some "boom")
          else .report ⟨name, uri, ⟨"Healthy"⟩, 10, none⟩ }
    let h : Handler := ⟨"/api/", Prober.timed plan, fun _ => ⟨1, 0⟩⟩
    let later : Handler := { h with clock := fun _ => ⟨2, 0⟩ }
    let v := Service.ofSettings s true
    let listed := h.handle v (listRequest "/api/")
    let got := handleAll v
      ([(later, "%41%2F%31"), (later, "%42")].map fun get => (get.1, getRequest "/api/" get.2))
    listed.1.status = 200 ∧ got.1.map (·.status) = [200, 200] ∧ listed.2.2 = got.2 := by
  intro s plan h later v listed got
  have houtcome : h.probing.HasOutcome fun name uri => (plan name uri).outcome :=
    fun _ _ _ _ => rfl
  have hdelay : h.probing.HasDelay fun name uri => (plan name uri).delay := fun _ _ _ _ => rfl
  have hfirst : Percent.Encodes (Percent.bytes "A/1") (Percent.bytes "%41%2F%31") := by
    have hall := Percent.encodes_flatMap_encodeByte (Percent.bytes "A/1")
    rwa [show String.ofList ((Percent.bytes "A/1").flatMap Percent.encodeByte) = "%41%2F%31" by
      decide +kernel] at hall
  have hsecond : Percent.Encodes (Percent.bytes "B") (Percent.bytes "%42") := by
    have hall := Percent.encodes_flatMap_encodeByte (Percent.bytes "B")
    rwa [show String.ofList ((Percent.bytes "B").flatMap Percent.encodeByte) = "%42" by
      decide +kernel] at hall
  obtain ⟨ms, ms', -, hlength, hlisted, hgot, -, -, -, -, hservices⟩ :=
    list_agrees_with_gets (v := v) ⟨rfl, houtcome⟩ (by decide) (by decide)
      (.cons ⟨⟨rfl, houtcome⟩, hfirst⟩ (.cons ⟨⟨rfl, houtcome⟩, hsecond⟩ .nil) :
        List.Forall₂ _ v.settings.applications [(later, "%41%2F%31"), (later, "%42")])
  refine ⟨congrArg Response.status hlisted, ?_, (hservices _ hdelay (by simpa using hdelay)).2⟩
  obtain ⟨m, m', rfl⟩ := List.length_eq_two.mp hlength
  exact congrArg (List.map (·.status)) hgot

end ServiceHealth.Server
