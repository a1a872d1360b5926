import ServiceHealth.Proofs.Check.Outcomes
import ServiceHealth.Proofs.Metrics.Growth
import ServiceHealth.Proofs.Server.Flight
import ServiceHealth.Prober.Http

/-!
# What becomes of a request

While the settings stay as they are, a request is decided by the first of these that applies: its
path has no route, there are no applications, its method is another one than `GET`, no application
has the name that it asks for. `Handler.Decides` lists the verdicts, each with all that has to hold
for it, so that their order can be read off; every request has one (`Handler.exists_decides`), and
it is answered by it. A request that is refused dispatches no probe and leaves the service as it
was, at every point of every course that it takes (`Flight.Decided.react`); one that is admitted is
answered with a document of reports, whatever comes of its probes.

## Main definitions

* `Query.AsksFor`, `Query.Misses` — the applications that a query asks for, if there are any.
* `Verdict`, `Handler.Decides` — what is decided on a request.
* `Flight.Stands`, `Flight.Decided` — how far a request comes on which a verdict was passed.
* `Checked` — what the checks of some applications do to a service.

## Main results

* `Handler.handle_of_refused`, `Handler.handle_of_admitted` — a request is handled as decided.
* `Flight.decided_during` — at no point of its course has a refused request done anything.
* `checked_checkAll` — the effects of checks.
* `Handler.answer_by_first_obstacle` — the answer to every request, and its effects.
-/

namespace ServiceHealth

/-! ### Queries -/

/-- The applications that a query asks for: all of them, or the first one of a name. -/
inductive Query.AsksFor (s : Settings) : Query → List Application → Prop
  | all : AsksFor s .list s.applications
  | named {before app after} : s.applications = before ++ app :: after →
      (∀ other ∈ before, other.name ≠ app.name) → AsksFor s (.get app.name) [app]

/-- A query asks for a name that no application has. -/
def Query.Misses (s : Settings) (q : Query) (name : String) : Prop :=
  q = .get name ∧ ∀ app ∈ s.applications, app.name ≠ name

/-- The applications of a query are those that it asks for. -/
theorem Query.applications_eq_ok_iff {s : Settings} {q : Query} {apps : List Application} :
    q.applications s = .ok apps ↔ q.AsksFor s apps := by
  constructor
  · intro h
    cases q with
    | list =>
      obtain rfl := Except.ok.inj h
      exact .all
    | get name =>
      rw [applications] at h
      split at h
      next app hfound =>
        obtain rfl := Except.ok.inj h
        obtain ⟨hname, before, after, hsplit, hbefore⟩ := List.find?_eq_some_iff_append.mp hfound
        obtain rfl : app.name = name := by simpa using hname
        exact .named hsplit (by simpa using hbefore)
      next => cases h
  · rintro (- | ⟨hsplit, hbefore⟩)
    · rfl
    · rename_i before app after
      have hfound : s.application? app.name = some app :=
        List.find?_eq_some_iff_append.mpr
          ⟨by simp, before, after, hsplit, by simpa using hbefore⟩
      rw [applications, hfound]

/-- A query has no applications just when it asks for a name that none has. -/
theorem Query.applications_eq_error_iff {s : Settings} {q : Query} {e : NotFound} :
    q.applications s = .error e ↔ q.Misses s e.name := by
  constructor
  · intro h
    cases q with
    | list => cases h
    | get name =>
      rw [applications] at h
      split at h
      next => cases h
      next hnone =>
        obtain rfl := Except.error.inj h
        exact ⟨rfl, Settings.application?_eq_none_iff.mp hnone⟩
  · rintro ⟨rfl, hnone⟩
    rw [applications, Settings.application?_eq_none_iff.mpr hnone]

/-! ### Checks -/

/-- Probes report members under their own names. -/
def Probing.NamesMembers (probing : Probing) : Prop :=
  ∀ task name uri start cancelAt r,
    (probing task name uri start cancelAt).outcome = .report r → r.name = name

/-- Probes over HTTP report members under their own names, whatever comes of them. -/
theorem Prober.namesMembers_http (network : Net.Network) (timeoutMs : Nat) :
    Probing.NamesMembers (Prober.http network timeoutMs) := by
  intro task name uri start cancelAt r hr
  obtain rfl := Outcome.report.inj hr
  rfl

/-- If probes report members under their own names, so do the entries of their targets. -/
theorem Probing.NamesMembers.name_memberEntry {probing : Probing} (h : probing.NamesMembers)
    (elapsed : Nat) (cancelAt : Option Nat) (task now i : Nat) (target : String × String) :
    (memberEntry elapsed (Check.taskOf probing cancelAt task now i target).result target).name =
      target.1 := by
  rw [ProbeTask.result]
  cases houtcome : (Check.taskOf probing cancelAt task now i target).run.outcome with
  | report r => exact h _ _ _ _ _ r houtcome
  | panic message => rfl

/-- If probes report members under their own names, the entries of a report are of resolved
members. -/
theorem Probing.NamesMembers.mem_members {probing : Probing} (h : probing.NamesMembers)
    (clock : Nat → Timestamp) (s : Settings) (cancelAt : Option Nat) (task now : Nat)
    (app : Application) {e : MemberReport}
    (he : e ∈ ((Check.begin probing s cancelAt task now app).report clock).members) :
    e.name ∈ app.members ∧ IsRegistered s e.name := by
  have hc := Check.dispatched_begin probing s cancelAt task now app
  rw [hc.members_report] at he
  obtain ⟨i, hi, rfl⟩ := List.mem_mapIdx.mp he
  rw [h.name_memberEntry]
  have hmem := List.mem_map_of_mem (f := Prod.fst) (List.getElem_mem hi)
  rw [hc.resolved.map_fst, List.mem_filter, decide_eq_true_eq] at hmem
  exact hmem

/-- The checks of several applications are begun one for each. -/
theorem forall₂_checkAll (probing : Probing) (s : Settings) (cancelAt : Option Nat)
    (task now : Nat) (apps : List Application) :
    List.Forall₂ (fun app c => ∃ task now, c = Check.begin probing s cancelAt task now app) apps
      (checkAll probing s cancelAt task now apps) := by
  induction apps generalizing task now with
  | nil => exact .nil
  | cons app apps ih => exact .cons ⟨task, now, rfl⟩ (ih _ _)

namespace Server

/-! ### Verdicts -/

/-- What is decided on a request: it is answered without a check, or applications are checked for
its query. -/
inductive Verdict
  | refused (response : Response)
  | admitted (q : Query) (apps : List Application)

namespace Handler

/-- What is decided on a request while these are the settings. -/
inductive Decides (h : Handler) (s : Settings) (r : Request) : Verdict → Prop
  | noRoute : (∀ q, route? h.basePath r.target.path ≠ some q) → Decides h s r (.refused .notFound)
  | noApplications : s.applications = [] → Decides h s r (.refused .notFound)
  | otherMethod {q} : route? h.basePath r.target.path = some q → s.applications ≠ [] →
      r.method ≠ .get → Decides h s r (.refused .methodNotAllowed)
  | unknownName {q name} : route? h.basePath r.target.path = some q → s.applications ≠ [] →
      r.method = .get → q.Misses s name →
      Decides h s r (.refused (.json 404 (NotFound.toJson ⟨name⟩)))
  | admitted {q apps} : route? h.basePath r.target.path = some q → s.applications ≠ [] →
      r.method = .get → q.AsksFor s apps → Decides h s r (.admitted q apps)

variable {h : Handler} {v : Service} {r : Request} {s : Settings} {response : Response} {q : Query}
  {apps : List Application}

/-- Every request is decided. -/
theorem exists_decides (h : Handler) (s : Settings) (r : Request) :
    ∃ verdict, h.Decides s r verdict := by
  cases hroute : route? h.basePath r.target.path with
  | none => exact ⟨_, .noRoute (by simp [hroute])⟩
  | some q =>
    by_cases happs : s.applications = []
    · exact ⟨_, .noApplications happs⟩
    by_cases hget : r.method = .get
    · cases hasked : q.applications s with
      | ok apps =>
        exact ⟨_, .admitted hroute happs hget (Query.applications_eq_ok_iff.mp hasked)⟩
      | error e =>
        exact ⟨_, .unknownName hroute happs hget (Query.applications_eq_error_iff.mp hasked)⟩
    · exact ⟨_, .otherMethod hroute happs hget⟩

/-- A request that is refused does not pass the gate, or its query misses its application. -/
theorem Decides.of_refused (hd : h.Decides s r (.refused response)) :
    gate h.basePath s r = .error response ∨
      ∃ q e, gate h.basePath s r = .ok q ∧ q.applications s = .error e ∧
        response = respond h.clock q (.error e) := by
  cases hd with
  | noRoute hnone =>
    refine .inl ?_
    rw [gate, Option.eq_none_iff_forall_ne_some.mpr hnone]
  | noApplications happs =>
    refine .inl ?_
    rw [gate]
    cases route? h.basePath r.target.path with
    | none => rfl
    | some q => simp [happs]
  | otherMethod hroute happs hmethod =>
    refine .inl ?_
    simp [gate, hroute, happs, hmethod]
  | @unknownName q name hroute happs hget hmisses =>
    refine .inr ⟨q, ⟨name⟩, ?_, Query.applications_eq_error_iff.mpr hmisses, rfl⟩
    simp [gate, hroute, happs, hget]

/-- A request that is admitted passes the gate, and its query has these applications. -/
theorem Decides.of_admitted (hd : h.Decides s r (.admitted q apps)) :
    gate h.basePath s r = .ok q ∧ q.applications s = .ok apps := by
  cases hd with
  | admitted hroute happs hget hasks =>
    exact ⟨by simp [gate, hroute, happs, hget], Query.applications_eq_ok_iff.mpr hasks⟩

/-- A request that is refused is answered so, without a check, and leaves the service. -/
theorem handle_of_refused (hd : h.Decides v.settings r (.refused response)) :
    h.handle v r = (response, [], v) := by
  rcases hd.of_refused with hgate | ⟨q, e, hgate, hmisses, rfl⟩
  · rw [handle, hgate]
  · rw [handle, hgate]
    simp only [serve, Service.ask, hmisses]
    rfl

/-- A request that is admitted is answered with the reports of the checks of its applications, and
leaves the service with these recorded and their tasks counted. -/
theorem handle_of_admitted (hd : h.Decides v.settings r (.admitted q apps)) :
    let cs := checkAll h.probing v.settings none v.nextTask 0 apps
    h.handle v r = (.json 200 (q.answer h.clock cs), cs, (v.record h.clock cs).countTasks cs) := by
  obtain ⟨hgate, happs⟩ := hd.of_admitted
  intro cs
  rw [handle, hgate]
  simp only [serve, Service.ask, happs]
  rfl

end Handler

/-! ### Courses -/

namespace Flight

/-- Where a request stands on which a verdict was passed, while the settings stay as they are. -/
inductive Stands (h : Handler) (s : Settings) (r : Request) : Verdict → Standing → Prop
  | received {verdict} : Stands h s r verdict (.received r)
  | admitted {verdict q} : gate h.basePath s r = .ok q → Stands h s r verdict (.admitted q)
  | checking {q apps snapshot app startedAt rest} :
      Stands h s r (.admitted q apps) (.checking q snapshot app startedAt rest)
  | refused {response} : Stands h s r (.refused response) (.answered response)
  | answered {q apps cs} :
      Stands h s r (.admitted q apps) (.answered (respond h.clock q (.ok cs)))
  | dropped {verdict} : Stands h s r verdict .dropped

/-- What is true of a request on which a verdict was passed, while the settings stay as they are: if
it was refused, no probe was dispatched and nothing was recorded. -/
structure Decided (h : Handler) (v : Service) (r : Request) (verdict : Verdict) (f : Flight) :
    Prop where
  settings : f.service.settings = v.settings
  stands : Stands h v.settings r verdict f.standing
  untouched : ∀ response, verdict = .refused response →
    f.service = v ∧ f.finished = [] ∧ f.probes = []

variable {h : Handler} {v : Service} {r : Request} {verdict : Verdict} {f : Flight}

/-- An admitted request goes on to the next application, or it is answered with reports. -/
theorem decided_goOn {q : Query} {apps : List Application} (hf : f.service.settings = v.settings)
    (s : Settings) (now : Nat) (rest : List Application) :
    Decided h v r (.admitted q apps) (f.goOn h q s now rest) := by
  cases rest with
  | nil => exact ⟨hf, .answered, fun _ hrefused => nomatch hrefused⟩
  | cons app rest => exact ⟨hf, .checking, fun _ hrefused => nomatch hrefused⟩

/-- A turn of the request keeps what is true of it. -/
theorem Decided.advance (hd : h.Decides v.settings r verdict) (hf : Decided h v r verdict f)
    (now : Nat) : Decided h v r verdict (f.advance h now) := by
  obtain ⟨service, standing, channel, finished, probes⟩ := f
  have hsame := hf
  obtain ⟨hsettings, hstands, huntouched⟩ := hf
  simp only at hsettings hstands huntouched
  cases hstands with
  | received =>
    simp only [Flight.advance, hsettings]
    cases verdict with
    | admitted q apps =>
      rw [hd.of_admitted.1]
      exact ⟨hsettings, .admitted hd.of_admitted.1, huntouched⟩
    | refused response =>
      rcases hd.of_refused with hgate | ⟨q, e, hgate, -, -⟩
      · rw [hgate]
        exact ⟨hsettings, .refused, huntouched⟩
      · rw [hgate]
        exact ⟨hsettings, .admitted hgate, huntouched⟩
  | @admitted _ q hgate =>
    simp only [Flight.advance, hsettings]
    cases verdict with
    | admitted q' apps =>
      obtain rfl := Except.ok.inj (hgate.symm.trans hd.of_admitted.1)
      rw [hd.of_admitted.2]
      exact decided_goOn hsettings _ now apps
    | refused response =>
      rcases hd.of_refused with hrefused | ⟨q', e, hgate', hmisses, rfl⟩
      · cases hgate.symm.trans hrefused
      · obtain rfl := Except.ok.inj (hgate.symm.trans hgate')
        rw [hmisses]
        exact ⟨hsettings, .refused, huntouched⟩
  | checking =>
    simp only [Flight.advance]
    split
    next => exact hsame
    next => exact decided_goOn hsettings _ now _
  | refused => exact hsame
  | answered => exact hsame
  | dropped => exact hsame

/-- **Step.** Whatever happens but a store keeps what is true of a request. -/
theorem Decided.react (hd : h.Decides v.settings r verdict) (hf : Decided h v r verdict f)
    {e : Event} (he : e.stored = []) : Decided h v r verdict (f.react h e) := by
  cases e with
  | advance now => exact hf.advance hd now
  | turn i t =>
    refine ⟨hf.settings, hf.stands, fun response hrefused => ?_⟩
    obtain ⟨hservice, hfinished, hprobes⟩ := hf.untouched response hrefused
    exact ⟨hservice, hfinished, by simp [Flight.react, hprobes]⟩
  | store s => cases he
  | drop =>
    simp only [Flight.react, abandon]
    split
    next => exact ⟨hf.settings, .dropped, hf.untouched⟩
    next => exact hf

/-- **Run.** It is true at every point of a request during which nothing is stored. -/
theorem decided_during (hd : h.Decides v.settings r verdict) {events : List Event}
    (hevents : ∀ e ∈ events, e.stored = []) : Decided h v r verdict (during h v r events) := by
  induction events using List.reverseRecOn with
  | nil => exact ⟨rfl, .received, fun _ _ => ⟨rfl, rfl, rfl⟩⟩
  | append_singleton events e ih =>
    rw [during_append]
    refine (ih fun e' he' => hevents e' (List.mem_append_left _ he')).react hd (hevents e ?_)
    exact List.mem_append_right _ (List.mem_singleton_self e)

end Flight

/-! ### Effects -/

/-- What the checks for some applications do to a service. Each application is checked once, in
order, and each of its resolved members is probed once, by a task of its own. The settings stay, the
tasks are counted, and the metrics, if any are kept, grow by the reports of the checks; so the
gauges of other applications stay, and if probes report members under their own names, so does what
is counted and measured of members that none of these applications has resolved. -/
structure Checked (h : Handler) (v : Service) (apps : List Application) (cs : List Check)
    (after : Service) : Prop where
  checks : List.Forall₂ (fun app c => c.application = app.name ∧
    Resolved v.settings app.members c.targets ∧
    ∃ task, c.tasks = c.targets.mapIdx fun i target =>
      ⟨task + i, h.probing (task + i) target.1 target.2 c.startedAt none⟩) apps cs
  settings : after.settings = v.settings
  tasks : after.nextTask = v.nextTask + (cs.map (·.tasks.length)).sum
  unmeasured : v.metrics = none → after.metrics = none
  metrics : ∀ m, v.metrics = some m → ∃ m', after.metrics = some m' ∧
    m.GrowsBy (cs.map (·.report h.clock)) m' ∧
    (∀ application, (∀ app ∈ apps, app.name ≠ application) →
      ∀ g, m'.gaugeOf? application g = m.gaugeOf? application g) ∧
    (h.probing.NamesMembers → ∀ member,
      (∀ app ∈ apps, member ∈ app.members → ¬ IsRegistered v.settings member) →
      (∀ status, m'.counterOf member status = m.counterOf member status) ∧
        m'.histogramOf member = m.histogramOf member)

/-- The reports of checks bear the names of their applications, and the entries of members that are
reported under their own names are of resolved members. -/
theorem names_of_forall₂ {h : Handler} {s : Settings} {apps : List Application} {cs : List Check}
    (hcs : List.Forall₂ (fun app c =>
      ∃ task now, c = Check.begin h.probing s none task now app) apps cs) :
    (∀ r ∈ cs.map (·.report h.clock), ∃ app ∈ apps, r.name = app.name) ∧
    (h.probing.NamesMembers → ∀ e ∈ entriesOf (cs.map (·.report h.clock)),
      ∃ app ∈ apps, e.name ∈ app.members ∧ IsRegistered s e.name) := by
  have hfrom : ∀ c ∈ cs, ∃ app ∈ apps, ∃ task now,
      c = Check.begin h.probing s none task now app := by
    intro c hc
    obtain ⟨i, hi, rfl⟩ := List.getElem_of_mem hc
    have hi' : i < apps.length := hcs.length_eq ▸ hi
    exact ⟨apps[i], List.getElem_mem hi', hcs.get hi' hi⟩
  constructor
  · intro r hr
    obtain ⟨c, hc, rfl⟩ := List.mem_map.mp hr
    obtain ⟨app, happ, task, now, rfl⟩ := hfrom c hc
    exact ⟨app, happ, Check.name_report ..⟩
  · intro hnames e he
    obtain ⟨r, hr, he⟩ := List.mem_flatMap.mp he
    obtain ⟨c, hc, rfl⟩ := List.mem_map.mp hr
    obtain ⟨app, happ, task, now, rfl⟩ := hfrom c hc
    exact ⟨app, happ, hnames.mem_members h.clock s none task now app he⟩

/-- The checks of applications, recorded and counted, do just this to a service. -/
theorem checked_checkAll (h : Handler) (v : Service) (apps : List Application) :
    let cs := checkAll h.probing v.settings none v.nextTask 0 apps
    Checked h v apps cs ((v.record h.clock cs).countTasks cs) := by
  intro cs
  have hcs := forall₂_checkAll h.probing v.settings none v.nextTask 0 apps
  obtain ⟨hreports, hentries⟩ := names_of_forall₂ hcs
  rw [Service.record_countTasks]
  refine ⟨hcs.imp fun app c hc => ?_, rfl, rfl, fun hnone => ?_, fun m hm => ?_⟩
  · obtain ⟨task, now, rfl⟩ := hc
    have hdispatched := Check.dispatched_begin h.probing v.settings none task now app
    refine ⟨Check.application_begin .., hdispatched.resolved, task, ?_⟩
    rw [hdispatched.startedAt]
    exact hdispatched.tasks
  · rw [Service.afterReports, hnone]
    rfl
  · have hgrows := Metrics.growsBy_record (cs.map (·.report h.clock)) m
    refine ⟨_, ?_, hgrows, fun application hother => hgrows.gauge_eq fun r hr => ?_,
      fun hnames member hother => hgrows.member_eq fun e he => ?_⟩
    · rw [Service.afterReports, hm, Option.map_some]
    · obtain ⟨app, happ, hname⟩ := hreports r hr
      exact hname ▸ hother app happ
    · obtain ⟨app, happ, hmem, hregistered⟩ := hentries hnames e he
      rintro rfl
      exact hother app happ hmem hregistered

/-! ### Answers -/

namespace Handler

/-- The answer to a request by the verdict on it. -/
inductive AnsweredBy (h : Handler) (v : Service) : Verdict → Response × List Check × Service → Prop
  | refused {response} : AnsweredBy h v (.refused response) (response, [], v)
  | admitted {q apps doc cs after} : Checked h v apps cs after →
      AnsweredBy h v (.admitted q apps) (.json 200 doc, cs, after)

/-- A request is answered by the verdict on it. -/
theorem Decides.answeredBy {h : Handler} {v : Service} {r : Request} {verdict : Verdict}
    (hd : h.Decides v.settings r verdict) : h.AnsweredBy v verdict (h.handle v r) := by
  cases verdict with
  | refused response =>
    rw [handle_of_refused hd]
    exact .refused
  | admitted q apps =>
    rw [handle_of_admitted hd]
    exact .admitted (checked_checkAll h v apps)

variable {h : Handler} {v : Service} {r : Request} {verdict : Verdict}
  {answer : Response × List Check × Service}

/-- A request is refused with another status than 200. -/
theorem Decides.status_ne {s : Settings} {response : Response}
    (hd : h.Decides s r (.refused response)) : response.status ≠ 200 := by
  intro hstatus
  cases hd with
  | noRoute | noApplications | otherMethod | unknownName => cases hstatus

/-- Neither the probes nor the clock have a say in the verdict. -/
theorem Decides.congr {s : Settings} (hd : h.Decides s r verdict) (probing : Probing)
    (clock : Nat → Timestamp) : ({ h with probing, clock } : Handler).Decides s r verdict := by
  cases hd with
  | noRoute hnone => exact .noRoute hnone
  | noApplications happs => exact .noApplications happs
  | otherMethod hroute happs hmethod => exact .otherMethod hroute happs hmethod
  | unknownName hroute happs hget hmisses => exact .unknownName hroute happs hget hmisses
  | admitted hroute happs hget hasks => exact .admitted hroute happs hget hasks

/-- Answers by one verdict have one status and one type. -/
theorem AnsweredBy.head_eq {h' : Handler} {answer' : Response × List Check × Service}
    (ha : h.AnsweredBy v verdict answer) (ha' : h'.AnsweredBy v verdict answer') :
    answer'.1.status = answer.1.status ∧ answer'.1.contentType = answer.1.contentType := by
  cases ha with
  | refused =>
    cases ha'
    exact ⟨rfl, rfl⟩
  | admitted =>
    cases ha'
    exact ⟨rfl, rfl⟩

/-- What a request is answered in the course that it takes has the status and the type of the
verdict. -/
theorem AnsweredBy.head_eq_of_stands {s : Settings} {response : Response}
    (ha : h.AnsweredBy v verdict answer)
    (hstands : Flight.Stands h s r verdict (.answered response)) :
    response.status = answer.1.status ∧ response.contentType = answer.1.contentType := by
  cases ha with
  | refused =>
    cases hstands
    exact ⟨rfl, rfl⟩
  | admitted =>
    cases hstands
    exact ⟨rfl, rfl⟩

/-- The answers to requests, each with what has to hold for it. -/
theorem handle_cases (h : Handler) (v : Service) (r : Request) :
    let response := (h.handle v r).1
    let route := route? h.basePath r.target.path
    let s := v.settings
    (((∀ q, route ≠ some q) ∨ s.applications = []) ∧ response = .notFound) ∨
    ((∃ q, route = some q ∧ s.applications ≠ [] ∧ r.method ≠ .get) ∧
      response = .methodNotAllowed) ∨
    ((∃ q name, route = some q ∧ s.applications ≠ [] ∧ r.method = .get ∧ q.Misses s name) ∧
      ∃ doc, response = .json 404 doc) ∨
    ((∃ q apps, route = some q ∧ s.applications ≠ [] ∧ r.method = .get ∧ q.AsksFor s apps) ∧
      ∃ doc, response = .json 200 doc) := by
  intro response route s
  obtain ⟨verdict, hd⟩ := exists_decides h s r
  cases verdict with
  | refused refusal =>
    have hresponse : response = refusal := congrArg Prod.fst (handle_of_refused hd)
    rw [hresponse]
    cases hd with
    | noRoute hnone => exact .inl ⟨.inl hnone, rfl⟩
    | noApplications happs => exact .inl ⟨.inr happs, rfl⟩
    | otherMethod hroute happs hmethod => exact .inr (.inl ⟨⟨_, hroute, happs, hmethod⟩, rfl⟩)
    | unknownName hroute happs hget hmisses =>
      exact .inr (.inr (.inl ⟨⟨_, _, hroute, happs, hget, hmisses⟩, _, rfl⟩))
  | admitted q apps =>
    have hresponse := congrArg Prod.fst (handle_of_admitted hd)
    cases hd with
    | admitted hroute happs hget hasks =>
      exact .inr (.inr (.inr ⟨⟨q, apps, hroute, happs, hget, hasks⟩, _, hresponse⟩))

/-- The plain 404 is for paths without a route and for services without applications. -/
theorem handle_eq_notFound_iff :
    (h.handle v r).1 = .notFound ↔
      (∀ q, route? h.basePath r.target.path ≠ some q) ∨ v.settings.applications = [] := by
  constructor
  · intro heq
    rcases h.handle_cases v r with ⟨hnone, -⟩ | ⟨-, h405⟩ | ⟨-, doc, h404⟩ | ⟨-, doc, h200⟩
    · exact hnone
    · cases heq.symm.trans h405
    · cases heq.symm.trans h404
    · cases heq.symm.trans h200
  · rintro (hroute | happs)
    · exact congrArg Prod.fst (handle_of_refused (.noRoute hroute))
    · exact congrArg Prod.fst (handle_of_refused (.noApplications happs))

/-- The plain 405 is for other methods on a route. -/
theorem handle_eq_methodNotAllowed_iff :
    (h.handle v r).1 = .methodNotAllowed ↔
      ∃ q, route? h.basePath r.target.path = some q ∧ v.settings.applications ≠ [] ∧
        r.method ≠ .get := by
  constructor
  · intro heq
    rcases h.handle_cases v r with ⟨-, hnone⟩ | ⟨hmethod, -⟩ | ⟨-, doc, h404⟩ | ⟨-, doc, h200⟩
    · cases heq.symm.trans hnone
    · exact hmethod
    · cases heq.symm.trans h404
    · cases heq.symm.trans h200
  · rintro ⟨q, hroute, happs, hother⟩
    exact congrArg Prod.fst (handle_of_refused (.otherMethod hroute happs hother))

/-- The 404 with a document is for names that no application has. -/
theorem handle_document_notFound_iff :
    (h.handle v r).1.status = 404 ∧ (h.handle v r).1.contentType = some "application/json" ↔
      ∃ q name, route? h.basePath r.target.path = some q ∧ v.settings.applications ≠ [] ∧
        r.method = .get ∧ q.Misses v.settings name := by
  constructor
  · rintro ⟨hstatus, htype⟩
    rcases h.handle_cases v r with ⟨-, hnone⟩ | ⟨-, h405⟩ | ⟨hmisses, -⟩ | ⟨-, doc, h200⟩
    · cases htype.symm.trans (congrArg Response.contentType hnone)
    · cases htype.symm.trans (congrArg Response.contentType h405)
    · exact hmisses
    · cases hstatus.symm.trans (congrArg Response.status h200)
  · rintro ⟨q, name, hroute, happs, hget, hmisses⟩
    have hhandle := congrArg Prod.fst (handle_of_refused (.unknownName hroute happs hget hmisses))
    exact ⟨congrArg Response.status hhandle, congrArg Response.contentType hhandle⟩

/-- The 200 with a document is for requests that ask for applications there are. -/
theorem handle_document_ok_iff :
    (h.handle v r).1.status = 200 ∧ (h.handle v r).1.contentType = some "application/json" ↔
      ∃ q apps, route? h.basePath r.target.path = some q ∧ v.settings.applications ≠ [] ∧
        r.method = .get ∧ q.AsksFor v.settings apps := by
  constructor
  · rintro ⟨hstatus, htype⟩
    rcases h.handle_cases v r with ⟨-, hnone⟩ | ⟨-, h405⟩ | ⟨-, doc, h404⟩ | ⟨hasks, -⟩
    · cases htype.symm.trans (congrArg Response.contentType hnone)
    · cases htype.symm.trans (congrArg Response.contentType h405)
    · cases hstatus.symm.trans (congrArg Response.status h404)
    · exact hasks
  · rintro ⟨q, apps, hroute, happs, hget, hasks⟩
    have hhandle := congrArg Prod.fst (handle_of_admitted (.admitted hroute happs hget hasks))
    exact ⟨congrArg Response.status hhandle, congrArg Response.contentType hhandle⟩

/-- A request with another answer than 200 is one that the verdict refuses. -/
theorem AnsweredBy.exists_refused (ha : h.AnsweredBy v verdict answer)
    (hstatus : answer.1.status ≠ 200) :
    ∃ response, verdict = .refused response ∧ answer = (response, [], v) := by
  cases ha with
  | refused => exact ⟨_, rfl, rfl⟩
  | admitted => exact absurd rfl hstatus

/-- With a 200, the applications that the query asks for are checked. -/
theorem AnsweredBy.checked {q : Query} {apps : List Application}
    (ha : h.AnsweredBy v verdict answer) (hd : h.Decides v.settings r verdict)
    (hstatus : answer.1.status = 200) (hroute : route? h.basePath r.target.path = some q)
    (hasks : q.AsksFor v.settings apps) : Checked h v apps answer.2.1 answer.2.2 := by
  cases ha with
  | refused => exact absurd hstatus hd.status_ne
  | admitted hchecked =>
    cases hd with
    | admitted hroute' happs hget hasks' =>
      obtain rfl := Option.some.inj (hroute'.symm.trans hroute)
      have hok := Query.applications_eq_ok_iff.mpr hasks'
      obtain rfl := Except.ok.inj (hok.symm.trans (Query.applications_eq_ok_iff.mpr hasks))
      exact hchecked

/-- A request that the verdict on it refuses touches nothing in its course, and what is answered has
the status and the type of the verdict. -/
theorem AnsweredBy.of_decided {f : Flight} (ha : h.AnsweredBy v verdict answer)
    (hdecided : Flight.Decided h v r verdict f) :
    (answer.1.status ≠ 200 → f.service = v ∧ f.finished = [] ∧ f.probes = []) ∧
    ∀ response, f.standing = .answered response →
      response.status = answer.1.status ∧ response.contentType = answer.1.contentType := by
  refine ⟨fun hstatus => ?_, fun response hresponse => ?_⟩
  · obtain ⟨refusal, hrefused, -⟩ := ha.exists_refused hstatus
    exact hdecided.untouched refusal hrefused
  · have hstands := hdecided.stands
    rw [hresponse] at hstands
    exact ha.head_eq_of_stands hstands

/-- **The first obstacle decides.** While the settings stay as they are, a request is answered by

* the plain 404 just when its path has no route or there are no applications,
* and else by the plain 405 just when its method is not `GET`,
* and else by a 404 with a document just when it asks for a name that no application has,
* and else by a 200 with a document.

An answer but 200 comes without a check and leaves the service as it was. With a 200, just the
applications that the query asks for are checked. No probe and no clock has a say in the status.
It is the same in every course that the request takes while nothing is stored, in whatever order
it and its probes have their turns: at no point has a request that is refused dispatched or changed
anything, and no other status is answered. -/
theorem answer_by_first_obstacle (h : Handler) (v : Service) (r : Request) :
    let answer := h.handle v r
    let route := route? h.basePath r.target.path
    let s := v.settings
    (answer.1 = ⟨404, none, "Not Found"⟩ ↔ (∀ q, route ≠ some q) ∨ s.applications = []) ∧
    (answer.1 = ⟨405, none, "Method Not Allowed"⟩ ↔
      ∃ q, route = some q ∧ s.applications ≠ [] ∧ r.method ≠ .get) ∧
    (answer.1.status = 404 ∧ answer.1.contentType = some "application/json" ↔
      ∃ q name, route = some q ∧ s.applications ≠ [] ∧ r.method = .get ∧ q.Misses s name) ∧
    (answer.1.status = 200 ∧ answer.1.contentType = some "application/json" ↔
      ∃ q apps, route = some q ∧ s.applications ≠ [] ∧ r.method = .get ∧ q.AsksFor s apps) ∧
    (answer.1.status ≠ 200 → answer.2 = ([], v)) ∧
    (answer.1.status = 200 → ∀ q apps, route = some q → q.AsksFor s apps →
      Checked h v apps answer.2.1 answer.2.2) ∧
    (∀ probing clock, let other := ({ h with probing, clock } : Handler).handle v r
      other.1.status = answer.1.status ∧ other.1.contentType = answer.1.contentType) ∧
    (∀ events, (∀ e ∈ events, Flight.Event.stored e = []) →
      let f := Flight.during h v r events
      (answer.1.status ≠ 200 → f.service = v ∧ f.finished = [] ∧ f.probes = []) ∧
      ∀ response, f.standing = .answered response →
        response.status = answer.1.status ∧ response.contentType = answer.1.contentType) := by
  intro answer route s
  obtain ⟨verdict, hd⟩ := exists_decides h s r
  have hanswer : h.AnsweredBy v verdict answer := hd.answeredBy
  refine ⟨handle_eq_notFound_iff, handle_eq_methodNotAllowed_iff, handle_document_notFound_iff,
    handle_document_ok_iff, fun hstatus => ?_, fun hstatus q apps hroute hasks => ?_,
    fun probing clock => ?_, fun events hevents => ?_⟩
  · obtain ⟨response, -, heq⟩ := hanswer.exists_refused hstatus
    exact congrArg Prod.snd heq
  · exact hanswer.checked hd hstatus hroute hasks
  · exact hanswer.head_eq (hd.congr probing clock).answeredBy
  · exact hanswer.of_decided (Flight.decided_during hd hevents)

/-- Two applications, of which the second shares its name with a third one, and a member whose probe
panics. The second one is checked alone, with its gauges set and those of the first left; a method
that is not allowed is refused before the name is looked up, and a path without a route before the
method. -/
theorem answer_of_shared_name :
    let h : Handler :=
      ⟨"/api/", fun _ name uri start _ =>
          { endsAt := start + 1
            outcome :=
              if name = "b" then .panic none else .report ⟨name, uri, ⟨"Healthy"⟩, 1, none⟩ },
        fun _ => default⟩
    let v : Service :=
      { settings :=
          { healthChecks := [⟨"a", "http://a"⟩, ⟨"b", "http://b"⟩]
            applications := [⟨"A", ["a"]⟩, ⟨"B", ["ghost", "b"]⟩, ⟨"B", ["a"]⟩] }
        metrics := some {} }
    let second : Request := ⟨.get, ⟨"/api/applications/B"⟩⟩
    let answer := h.handle v second
    answer.1.status = 200 ∧ answer.1.contentType = some "application/json" ∧
    answer.2.1.map (·.targets) = [[("b", "http://b")]] ∧
    (∃ m, answer.2.2.metrics = some m ∧ m.gaugeOf? "B" .totalMembers = some 1 ∧
      m.gaugeOf? "A" .totalMembers = none) ∧
    h.handle v ⟨⟨"PUT"⟩, ⟨"/api/applications/C"⟩⟩ =
      (⟨405, none, "Method Not Allowed"⟩, [], v) ∧
    h.handle v ⟨⟨"PUT"⟩, ⟨"/api/C"⟩⟩ = (⟨404, none, "Not Found"⟩, [], v) := by
  intro h v second answer
  have hroute : route? h.basePath second.target.path = some (.get "B") := by decide +kernel
  have hasks : Query.AsksFor v.settings (.get "B") [⟨"B", ["ghost", "b"]⟩] :=
    Query.applications_eq_ok_iff.mp rfl
  obtain ⟨-, -, -, hfound, -, hchecked, -⟩ := h.answer_by_first_obstacle v second
  obtain ⟨hstatus, htype⟩ := hfound.mpr ⟨_, _, hroute, by decide, rfl, hasks⟩
  obtain ⟨m, hm, -, hothers, -⟩ := (hchecked hstatus _ _ hroute hasks).metrics {} rfl
  have htotal : (answer.2.2.metrics.bind (·.gaugeOf? "B" .totalMembers)) = some 1 := by
    decide +kernel
  rw [hm, Option.bind_some] at htotal
  refine ⟨hstatus, htype, by decide +kernel, ⟨m, hm, htotal, ?_⟩, ?_, ?_⟩
  · exact hothers "A" (by decide) .totalMembers
  · obtain ⟨-, hmethod, -, -, hrefused, -⟩ :=
      h.answer_by_first_obstacle v ⟨⟨"PUT"⟩, ⟨"/api/applications/C"⟩⟩
    have hanswer := hmethod.mpr ⟨.get "C", by decide +kernel, by decide, by decide⟩
    exact Prod.ext hanswer (hrefused (by rw [hanswer]; decide))
  · obtain ⟨hnone, -, -, -, hrefused, -⟩ :=
      h.answer_by_first_obstacle v ⟨⟨"PUT"⟩, ⟨"/api/C"⟩⟩
    have hroute : route? h.basePath "/api/C" = none := by decide +kernel
    have hanswer := hnone.mpr (.inl (by simp [hroute]))
    exact Prod.ext hanswer (hrefused (by rw [hanswer]; decide))

end Handler

end Server

end ServiceHealth
