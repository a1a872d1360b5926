import ServiceHealth.Proofs.Server.Handler

/-!
# Requests while settings change

A request looks at the settings twice, and other settings may be stored before, between and
after its looks. The answer is the one that a single one of the settings gives, except when the
first look finds applications and the second one none: then the answer may be one that no
settings give.

## Main definitions

* `Event`, `InFlight`, `InFlight.react` — a request under way, and what happens meanwhile.
* `InFlight.during` — a request from its start over a sequence of events.
* `Misses`, `InFlight.Torn` — the two looks do not agree with any settings.

## Main results

* `InFlight.Consistent.react`, `InFlight.consistent_during` — what the looks have seen, after one
  event and after all of them.
* `answered_as_on_one_settings_iff` — when the answer is that of single settings.
-/

namespace ServiceHealth.Server

/-- What happens from the start of a request to its end: it takes its next step, or other settings
are stored. -/
inductive Event
  | advance
  | store (s : Settings)
  deriving DecidableEq, Repr

/-- A request under way: the service and the stage, the settings that were current so far, and
the ones at its looks. -/
structure InFlight where
  service : Service
  stage : Stage
  seen : List Settings
  looks : List Settings := []
  deriving DecidableEq, Repr

/-- There are applications, but not the one that the query asks for. -/
def Misses (s : Settings) (q : Query) : Prop :=
  s.applications ≠ [] ∧ ∃ name, q = .get name ∧ ∀ app ∈ s.applications, app.name ≠ name

namespace InFlight

/-- A request at its start. -/
def start (v : Service) (r : Request) : InFlight := ⟨v, .received r, [v.settings], []⟩

/-- One event. There is a look at each step until the request is answered, and none behind
that. -/
def react (h : Handler) (x : InFlight) : Event → InFlight
  | .store s => { x with service := x.service.swap s, seen := x.seen ++ [s] }
  | .advance =>
    match x.stage with
    | .answered .. => x
    | stage =>
      { x with
        service := (h.step x.service stage).2
        stage := (h.step x.service stage).1
        looks := x.looks ++ [x.service.settings] }

/-- A request over a sequence of events. -/
def during (h : Handler) (v : Service) (r : Request) (events : List Event) : InFlight :=
  events.foldl (react h) (start v r)

/-- The first look found applications and the second one none, and at no time were there
applications without the one that the query asks for. -/
def Torn (x : InFlight) (q : Query) : Prop :=
  ∃ first second, x.looks = [first, second] ∧ first.applications ≠ [] ∧
    second.applications = [] ∧ ∀ s ∈ x.seen, ¬ Misses s q

/-- What is true of a request that started with a service: its looks saw settings that were
current, and it has come as far as they let it. -/
inductive Consistent (h : Handler) (v : Service) (r : Request) : InFlight → Prop
  | received {current seen} : current ∈ seen →
      Consistent h v r ⟨v.swap current, .received r, seen, []⟩
  | admitted {current seen first q} : current ∈ seen → first ∈ seen →
      gate h.basePath first r = .ok q →
      Consistent h v r ⟨v.swap current, .admitted q, seen, [first]⟩
  | refused {service seen first response} : first ∈ seen →
      gate h.basePath first r = .error response →
      Consistent h v r ⟨service, .answered response [], seen, [first]⟩
  | served {service seen first second q} : first ∈ seen → second ∈ seen →
      gate h.basePath first r = .ok q →
      Consistent h v r ⟨service, .answered (h.serve (v.swap second) q).1
        (h.serve (v.swap second) q).2.1, seen, [first, second]⟩

variable {h : Handler} {v : Service} {r : Request}

/-- **Step.** An event keeps what is true of a request. -/
theorem Consistent.react {x : InFlight} (hx : Consistent h v r x) (e : Event) :
    Consistent h v r (x.react h e) := by
  cases e with
  | store s =>
    cases hx with
    | received hcurrent => exact .received (by simp)
    | admitted hcurrent hfirst hgate =>
      exact .admitted (by simp) (List.mem_append_left _ hfirst) hgate
    | refused hfirst hgate => exact .refused (List.mem_append_left _ hfirst) hgate
    | served hfirst hsecond hgate =>
      exact .served (List.mem_append_left _ hfirst) (List.mem_append_left _ hsecond) hgate
  | advance =>
    cases hx with
    | @received current seen hcurrent =>
      cases hgate : gate h.basePath current r with
      | error response =>
        have hstep : h.step (v.swap current) (.received r) =
            (.answered response [], v.swap current) := by
          simp [Handler.step, Service.swap, hgate]
        simp only [InFlight.react, hstep]
        exact .refused hcurrent hgate
      | ok q =>
        have hstep : h.step (v.swap current) (.received r) = (.admitted q, v.swap current) := by
          simp [Handler.step, Service.swap, hgate]
        simp only [InFlight.react, hstep]
        exact .admitted hcurrent hcurrent hgate
    | admitted hcurrent hfirst hgate => exact .served hfirst hcurrent hgate
    | refused hfirst hgate => exact .refused hfirst hgate
    | served hfirst hsecond hgate => exact .served hfirst hsecond hgate

/-- **Run.** It stays true over every sequence of events. -/
theorem consistent_during (h : Handler) (v : Service) (r : Request) (events : List Event) :
    Consistent h v r (during h v r events) := by
  have hrun : ∀ x, Consistent h v r x → Consistent h v r (events.foldl (InFlight.react h) x) := by
    induction events with
    | nil => exact fun x hx => hx
    | cons e events ih => exact fun x hx => ih _ (hx.react e)
  exact hrun _ (.received (by simp))

end InFlight

/-! ### The answers of single settings -/

/-- The answer to a query that finds no applications. -/
def answerOfNone : Query → Response
  | .list => .json 200 (.array [])
  | .get name => .json 404 (NotFound.toJson ⟨name⟩)

section Answers

variable (h : Handler) (v : Service) {r : Request} {q : Query}

/-- A query without applications finds none. -/
theorem serve_of_no_applications (happs : v.settings.applications = []) :
    (h.serve v q).1 = answerOfNone q := by
  cases q with
  | list =>
    rw [h.serve_list_eq v, happs]
    rfl
  | get name =>
    have hmissing : v.settings.application? name = none := by
      simp [Settings.application?_eq_none_iff, happs]
    rw [h.serve_get_eq_error v hmissing]
    rfl

/-- On single settings a routed request is answered as if there were no applications just when
there are some and it asks for one that is not among them. -/
theorem handle_eq_answerOfNone_iff (hroute : route? h.basePath r.target.path = some q)
    (hget : r.method = .get) :
    (h.handle v r).1 = answerOfNone q ↔ Misses v.settings q := by
  by_cases happs : v.settings.applications = []
  · rw [h.handle_of_no_applications v hroute happs]
    refine iff_of_false (fun heq => ?_) fun hsome => hsome.1 happs
    cases q with
    | list => exact nomatch congrArg Response.contentType heq
    | get name => exact nomatch congrArg Response.contentType heq
  · rw [h.handle_of_route v hroute hget happs]
    cases q with
    | list =>
      exact iff_of_false (h.serve_list_ne_empty v happs) fun ⟨_, _, hname, _⟩ => nomatch hname
    | get name =>
      cases hfind : v.settings.application? name with
      | some app =>
        rw [h.serve_get_eq v hfind]
        refine iff_of_false (fun heq => ?_) ?_
        · exact absurd (congrArg Response.status heq) (by simp [answerOfNone, Response.json])
        · rintro ⟨-, name', hname, hnone⟩
          obtain rfl : name = name' := Query.get.inj hname
          have hmissing := Settings.application?_eq_none_iff.mpr hnone
          rw [hfind] at hmissing
          cases hmissing
      | none =>
        rw [h.serve_get_eq_error v hfind]
        exact iff_of_true rfl ⟨happs, name, rfl, Settings.application?_eq_none_iff.mp hfind⟩

variable {basePath : String} {s : Settings}

/-- A routed request that the first look lets pass found applications. -/
theorem of_gate_ok (hroute : route? basePath r.target.path = some q) {q' : Query}
    (hgate : gate basePath s r = .ok q') : s.applications ≠ [] ∧ q' = q := by
  rw [gate, hroute] at hgate
  cases happs : s.applications with
  | nil => simp [happs] at hgate
  | cons app apps =>
    by_cases hget : r.method = .get
    · simp only [happs, hget] at hgate
      exact ⟨List.cons_ne_nil app apps, (Except.ok.inj hgate).symm⟩
    · simp [happs, hget] at hgate

/-- A routed request for a resource is refused only without applications. -/
theorem of_gate_error (hroute : route? basePath r.target.path = some q) (hget : r.method = .get)
    {response : Response} (hgate : gate basePath s r = .error response) :
    s.applications = [] ∧ response = .notFound := by
  rw [gate, hroute] at hgate
  cases happs : s.applications with
  | nil =>
    simp only [happs] at hgate
    exact ⟨rfl, (Except.error.inj hgate).symm⟩
  | cons app apps => simp [happs, hget] at hgate

/-- On single settings a routed request is never answered with an empty list. -/
theorem handle_ne_empty_list (hroute : route? h.basePath r.target.path = some q)
    (hget : r.method = .get) : (h.handle v r).1 ≠ answerOfNone .list := by
  by_cases happs : v.settings.applications = []
  · rw [h.handle_of_no_applications v hroute happs]
    exact fun heq => nomatch congrArg Response.contentType heq
  · rw [h.handle_of_route v hroute hget happs]
    cases q with
    | list => exact h.serve_list_ne_empty v happs
    | get name =>
      cases hfind : v.settings.application? name with
      | some app =>
        rw [h.serve_get_eq v hfind]
        exact fun heq => nomatch Json.render_inj (congrArg Response.body heq)
      | none =>
        rw [h.serve_get_eq_error v hfind]
        intro heq
        exact absurd (congrArg Response.status heq) (by simp [answerOfNone, Response.json])

end Answers

/-! ### The answer of a request under way -/

section Answered

variable {h : Handler} {v : Service} {r : Request} {q : Query} {x : InFlight}
  {response : Response} {checks : List Check}

/-- Torn looks are answered as if there were no applications. -/
theorem InFlight.Torn.answer (htorn : x.Torn q) (hroute : route? h.basePath r.target.path = some q)
    (hx : InFlight.Consistent h v r x) (hanswered : x.stage = .answered response checks) :
    response = answerOfNone q := by
  obtain ⟨first, second, hlooks, -, happs, -⟩ := htorn
  cases hx with
  | received _ => cases hanswered
  | admitted _ _ _ => cases hanswered
  | refused _ _ => cases hlooks
  | served _ _ hgate =>
    cases hlooks
    cases hanswered
    obtain ⟨-, rfl⟩ := of_gate_ok hroute hgate
    exact serve_of_no_applications h (v.swap second) happs

/-- On no settings that were current is a request with torn looks answered as it was. -/
theorem InFlight.Torn.handle_ne (htorn : x.Torn q)
    (hroute : route? h.basePath r.target.path = some q) (hget : r.method = .get)
    {s : Settings} (hs : s ∈ x.seen) : (h.handle (v.swap s) r).1 ≠ answerOfNone q := by
  obtain ⟨-, -, -, -, -, hnone⟩ := htorn
  intro heq
  exact hnone s hs ((handle_eq_answerOfNone_iff h (v.swap s) hroute hget).mp heq)

/-- Unless its looks are torn, a request is answered as on settings that were current. -/
theorem InFlight.answer_of_not_torn (hwhole : ¬ x.Torn q)
    (hroute : route? h.basePath r.target.path = some q) (hget : r.method = .get)
    (hx : InFlight.Consistent h v r x) (hanswered : x.stage = .answered response checks) :
    ∃ s ∈ x.seen, response = (h.handle (v.swap s) r).1 := by
  cases hx with
  | received _ => cases hanswered
  | admitted _ _ _ => cases hanswered
  | @refused _ _ first _ hfirst hgate =>
    cases hanswered
    obtain ⟨happs, rfl⟩ := of_gate_error hroute hget hgate
    refine ⟨first, hfirst, ?_⟩
    rw [h.handle_of_no_applications (v.swap first) hroute happs]
  | @served _ seen first second q' hfirst hsecond hgate =>
    cases hanswered
    obtain ⟨hsome, rfl⟩ := of_gate_ok hroute hgate
    by_cases happs : second.applications = []
    · -- The second look is excused by other settings that miss the application as well.
      obtain ⟨s, hs, hmisses⟩ : ∃ s ∈ seen, Misses s q' := by
        by_contra hnone
        exact hwhole ⟨first, second, rfl, hsome, happs, fun s hs hmisses => hnone ⟨s, hs, hmisses⟩⟩
      refine ⟨s, hs, ?_⟩
      rw [serve_of_no_applications h (v.swap second) happs]
      exact ((handle_eq_answerOfNone_iff h (v.swap s) hroute hget).mpr hmisses).symm
    · refine ⟨second, hsecond, ?_⟩
      rw [h.handle_of_route (v.swap second) hroute hget happs]

end Answered

/-- **One settings value or none.** The answer to a routed request is one that the handler gives on
single settings that were current during the request, except when the looks are torn. Then no
settings that were current give it, however the probes end and whatever the clock shows; and an
empty list is answered just then. -/
theorem answered_as_on_one_settings_iff (h : Handler) (v : Service) {r : Request} {q : Query}
    (hroute : route? h.basePath r.target.path = some q) (hget : r.method = .get)
    (events : List Event) {response : Response} {checks : List Check}
    (hanswered : (InFlight.during h v r events).stage = .answered response checks) :
    let x := InFlight.during h v r events
    ((∃ s ∈ x.seen, response = (h.handle (v.swap s) r).1) ↔ ¬ x.Torn q) ∧
    (x.Torn q → ∀ (h' : Handler) (v' : Service), h'.basePath = h.basePath →
      ∀ s ∈ x.seen, response ≠ (h'.handle (v'.swap s) r).1) ∧
    (response = ⟨200, some "application/json", "[]"⟩ ↔ q = .list ∧ x.Torn q) := by
  intro x
  have hx : InFlight.Consistent h v r x := InFlight.consistent_during h v r events
  have htorn_ne : x.Torn q → ∀ (h' : Handler) (v' : Service), h'.basePath = h.basePath →
      ∀ s ∈ x.seen, response ≠ (h'.handle (v'.swap s) r).1 := by
    intro htorn h' v' hbase s hs
    rw [htorn.answer hroute hx hanswered]
    exact (htorn.handle_ne (h := h') (hbase ▸ hroute) hget hs).symm
  have hempty : (⟨200, some "application/json", "[]"⟩ : Response) = answerOfNone .list := rfl
  refine ⟨⟨?_, ?_⟩, htorn_ne, ?_, ?_⟩
  · rintro ⟨s, hs, heq⟩ htorn
    exact htorn_ne htorn h v rfl s hs heq
  · exact fun hwhole => InFlight.answer_of_not_torn hwhole hroute hget hx hanswered
  · intro heq
    rw [hempty] at heq
    have htorn : x.Torn q := by
      by_contra hwhole
      obtain ⟨s, -, hs⟩ := InFlight.answer_of_not_torn hwhole hroute hget hx hanswered
      exact handle_ne_empty_list h (v.swap s) hroute hget (hs.symm.trans heq)
    refine ⟨?_, htorn⟩
    have hanswer := (htorn.answer hroute hx hanswered).symm.trans heq
    cases q with
    | list => rfl
    | get name =>
      exact absurd (congrArg Response.status hanswer) (by simp [answerOfNone, Response.json])
  · rintro ⟨rfl, htorn⟩
    rw [hempty, htorn.answer hroute hx hanswered]

/-- An application that vanishes together with all others between the looks at it: the answer is
that it is missing, as on no single settings. -/
theorem answer_of_vanished_application :
    let h : Handler :=
      ⟨"/api/health", Prober.timed fun _ _ => { outcome := .panic none }, fun _ => default⟩
    let v : Service := { settings := { applications := [⟨"A", []⟩] } }
    let r : Request := ⟨.get, ⟨"/api/health/applications/A"⟩⟩
    let x := InFlight.during h v r [.advance, .store {}, .advance]
    x.stage = .answered (answerOfNone (.get "A")) [] ∧
      ∀ s ∈ x.seen, answerOfNone (.get "A") ≠ (h.handle (v.swap s) r).1 := by
  intro h v r x
  have hroute : route? h.basePath r.target.path = some (.get "A") := by decide +kernel
  have hstage : x.stage = .answered (answerOfNone (.get "A")) [] := by decide +kernel
  have htorn : x.Torn (.get "A") := by
    have hseen : x.seen = [v.settings, {}] := by decide +kernel
    refine ⟨v.settings, {}, by decide +kernel, by decide, rfl, fun s hs => ?_⟩
    rintro ⟨happs, name, hname, hnone⟩
    obtain rfl : "A" = name := Query.get.inj hname
    rw [hseen] at hs
    rcases List.mem_pair.mp hs with rfl | rfl
    · exact hnone ⟨"A", []⟩ List.mem_cons_self rfl
    · exact happs rfl
  exact ⟨hstage, fun s hs => (answered_as_on_one_settings_iff h v hroute rfl
    [.advance, .store {}, .advance] hstage).2.1 htorn h v rfl s hs⟩

/-- All applications vanish between the looks of a request for all of them: the answer is an empty
list, as on no single settings. -/
theorem empty_list_of_vanished_applications :
    let h : Handler :=
      ⟨"/api/health", Prober.timed fun _ _ => { outcome := .panic none }, fun _ => default⟩
    let v : Service := { settings := { applications := [⟨"A", []⟩] } }
    let r : Request := ⟨.get, ⟨"/api/health/applications"⟩⟩
    let x := InFlight.during h v r [.advance, .store {}, .advance]
    x.stage = .answered ⟨200, some "application/json", "[]"⟩ [] ∧
      ∀ s ∈ x.seen, (h.handle (v.swap s) r).1 ≠ ⟨200, some "application/json", "[]"⟩ := by
  intro h v r x
  have hroute : route? h.basePath r.target.path = some .list := by decide +kernel
  have hstage : x.stage = .answered ⟨200, some "application/json", "[]"⟩ [] := by decide +kernel
  exact ⟨hstage, fun s _ => handle_ne_empty_list h (v.swap s) hroute rfl⟩

end ServiceHealth.Server
