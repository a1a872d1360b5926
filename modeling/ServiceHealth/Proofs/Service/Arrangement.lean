import ServiceHealth.Proofs.Check.Outcomes
import ServiceHealth.Proofs.Server.Handler

/-!
# Settings in another order

Looking a name up takes the first entry that has it. In valid settings no other entry has it, so the
entry is found wherever it stands (`find?_eq_of_unique`), and the targets of an application depend
on which health checks there are, not on their order. When every probe reports by name and URI
alone, so does the report of an application by its targets, and all that is left to differ between
two queries is the moments of their checks. Health checks that no application refers to are never
looked up: with them a query does the very same.

## Main definitions

* `ApplicationReport.undated`, `Service.undatedAnswer` — reports but for the moments of the checks.
* `Settings.undatedReport` — the report of an application from what its members report.

## Main results

* `Service.undatedAnswer_eq` — what a query is answered with, from the settings alone.
* `Service.answers_in_any_order` — queries over settings in another order, and over more health
  checks.
-/

namespace ServiceHealth

/-! ### Looking up -/

/-- The only element of its kind is found. -/
theorem find?_of_unique {α : Type} {p : α → Bool} {l : List α} {a : α} (ha : a ∈ l)
    (hp : p a = true) (hunique : ∀ b ∈ l, p b = true → b = a) : l.find? p = some a := by
  cases hfind : l.find? p with
  | none => exact absurd hp (List.find?_eq_none.mp hfind a ha)
  | some b => rw [hunique b (List.mem_of_find?_eq_some hfind) (List.find?_some hfind)]

/-- Where no two elements are of a kind, the same one is found wherever it stands. -/
theorem find?_eq_of_unique {α : Type} {p : α → Bool} {l l' : List α}
    (hmem : ∀ a, p a = true → (a ∈ l' ↔ a ∈ l))
    (hunique : ∀ a ∈ l, ∀ b ∈ l, p a = true → p b = true → a = b) : l'.find? p = l.find? p := by
  cases hfind' : l'.find? p with
  | none =>
    rw [eq_comm, List.find?_eq_none]
    intro a ha hp
    exact List.find?_eq_none.mp hfind' a ((hmem a hp).mpr ha) hp
  | some a =>
    have hp : p a = true := List.find?_some hfind'
    have ha : a ∈ l := (hmem a hp).mp (List.mem_of_find?_eq_some hfind')
    exact (find?_of_unique ha hp fun b hb hpb => hunique b hb a ha hpb hp).symm

namespace Settings

variable {s : Settings} {name : String}

/-- An application is looked up alike wherever it stands in valid settings. -/
theorem application?_eq_of_perm (hvalid : s.validate = .ok ()) {s' : Settings}
    (h : s'.applications.Perm s.applications) (name : String) :
    s'.application? name = s.application? name := by
  obtain ⟨-, ⟨-, hnodup⟩, -⟩ := validate_eq_ok_iff.mp hvalid
  refine find?_eq_of_unique (fun _ _ => h.mem_iff) fun a ha b hb hname hname' => ?_
  rw [beq_iff_eq] at hname hname'
  exact List.inj_on_of_nodup_map hnodup ha hb (hname.trans hname'.symm)

/-- A name is looked up alike in valid settings and with health checks of other names put anywhere
between theirs. -/
theorem memberUri?_eq_of_perm (hvalid : s.validate = .ok ()) {s' : Settings}
    {added : List HealthCheck} (h : s'.healthChecks.Perm (s.healthChecks ++ added))
    (hother : ∀ check ∈ added, check.name ≠ name) : s'.memberUri? name = s.memberUri? name := by
  obtain ⟨⟨-, hnodup⟩, -⟩ := validate_eq_ok_iff.mp hvalid
  refine congrArg (Option.map HealthCheck.uri) (find?_eq_of_unique (fun check hname => ?_) ?_)
  · rw [beq_iff_eq] at hname
    rw [h.mem_iff, List.mem_append]
    exact or_iff_left fun hadded => hother check hadded hname
  · intro check hcheck check' hcheck' hname hname'
    rw [beq_iff_eq] at hname hname'
    exact List.inj_on_of_nodup_map hnodup hcheck hcheck' (hname.trans hname'.symm)

/-- In valid settings a health check is found under its name. -/
theorem memberUri?_of_mem (hvalid : s.validate = .ok ()) {check : HealthCheck}
    (h : check ∈ s.healthChecks) : s.memberUri? check.name = some check.uri := by
  obtain ⟨⟨-, hnodup⟩, -⟩ := validate_eq_ok_iff.mp hvalid
  have hfound : s.healthChecks.find? (·.name == check.name) = some check :=
    find?_of_unique h (beq_self_eq_true _) fun other hother hname =>
      List.inj_on_of_nodup_map hnodup hother h (beq_iff_eq.mp hname)
  rw [memberUri?, hfound]
  rfl

/-- Valid settings are valid in any order. -/
theorem validate_of_perm (hvalid : s.validate = .ok ()) {checks : List HealthCheck}
    {apps : List Application} (hchecks : checks.Perm s.healthChecks)
    (happs : apps.Perm s.applications) :
    { s with healthChecks := checks, applications := apps }.validate = .ok () := by
  rw [validate_eq_ok_iff] at hvalid ⊢
  simpa only [hchecks.mem_iff, happs.mem_iff, (hchecks.map (·.name)).nodup_iff,
    (happs.map (·.name)).nodup_iff] using hvalid

end Settings

/-! ### Checking -/

/-- A check depends on the registry only by the names of its members. -/
theorem Check.begin_eq_of_memberUri? {s s' : Settings} {app : Application}
    (h : ∀ name ∈ app.members, s'.memberUri? name = s.memberUri? name) (probing : Probing)
    (cancelAt : Option Nat) (task now : Nat) :
    Check.begin probing s' cancelAt task now app = Check.begin probing s cancelAt task now app := by
  refine List.foldl_ext _ _ _ fun c name hname => ?_
  rw [dispatch, dispatch, h name hname]

/-- Checks of several applications depend on the registry only by the names of their members. -/
theorem checkAll_eq_of_memberUri? {s s' : Settings} {apps : List Application}
    (h : ∀ app ∈ apps, ∀ name ∈ app.members, s'.memberUri? name = s.memberUri? name)
    (probing : Probing) (cancelAt : Option Nat) (task now : Nat) :
    checkAll probing s' cancelAt task now apps = checkAll probing s cancelAt task now apps := by
  induction apps generalizing task now with
  | nil => rfl
  | cons app apps ih =>
    rw [List.forall_mem_cons] at h
    rw [checkAll, checkAll, Check.begin_eq_of_memberUri? h.1, ih h.2]

/-- The applications that a query asks for are among those of the settings. -/
theorem Query.mem_of_applications {s : Settings} {q : Query} {asked : List Application}
    (h : q.applications s = .ok asked) {app : Application} (happ : app ∈ asked) :
    app ∈ s.applications := by
  cases q with
  | list =>
    obtain rfl := Except.ok.inj h
    exact happ
  | get name =>
    rw [applications] at h
    split at h
    next found hfound =>
      obtain rfl := Except.ok.inj h
      obtain rfl := List.mem_singleton.mp happ
      exact List.mem_of_find?_eq_some hfound
    next => cases h

/-- A query depends on the registry only by the names of members. -/
theorem Service.ask_eq_of_memberUri? {s s' : Settings} (happs : s'.applications = s.applications)
    (h : ∀ app ∈ s.applications, ∀ name ∈ app.members, s'.memberUri? name = s.memberUri? name)
    (v : Service) (probing : Probing) (clock : Nat → Timestamp) (cancelAt : Option Nat)
    (q : Query) : v.ask probing clock s' cancelAt q = v.ask probing clock s cancelAt q := by
  have hquery : q.applications s' = q.applications s := by
    cases q <;> simp only [Query.applications, Settings.application?, happs]
  rw [ask, ask, hquery]
  cases hasked : q.applications s with
  | error e => rfl
  | ok asked =>
    have hchecks := checkAll_eq_of_memberUri?
      (fun app happ => h app (Query.mem_of_applications hasked happ)) probing cancelAt v.nextTask 0
    simp only [hchecks]

/-! ### Reports -/

/-- A report but for the moment of its check. -/
def ApplicationReport.undated (r : ApplicationReport) : ApplicationReport :=
  { r with checkedAt := default }

/-- What a query is answered with, but for the moments of the checks. -/
def Service.undatedAnswer (v : Service) (probing : Probing) (clock : Nat → Timestamp)
    (s : Settings) (q : Query) : Except NotFound (List ApplicationReport) :=
  (v.ask probing clock s none q).1.map (List.map fun c => (c.report clock).undated)

/-- The report of an application, but for its moment, from what its members report. -/
def Settings.undatedReport (s : Settings) (report : (name uri : String) → MemberReport)
    (app : Application) : ApplicationReport :=
  ⟨app.name, default, (s.targets app).map fun target => report target.1 target.2⟩

section

variable {probing : Probing} {report : (name uri : String) → MemberReport}

/-- **Step.** The report of a check is what the members report. -/
theorem Check.undated_report_begin
    (h : probing.HasOutcome fun name uri => .report (report name uri)) (clock : Nat → Timestamp)
    (s : Settings) (task now : Nat) (app : Application) :
    ((Check.begin probing s none task now app).report clock).undated =
      s.undatedReport report app := by
  have hmembers (measured : Measured) :
      (s.reportFrom (fun name uri => .report (report name uri)) app measured).members =
        (s.targets app).map fun target => report target.1 target.2 := by
    refine List.ext_getElem (by simp [Settings.reportFrom]) fun i hi hi' => ?_
    simp [Settings.reportFrom, outcomeEntry]
  rw [Check.report_begin h, ApplicationReport.undated, Settings.undatedReport, hmembers]
  rfl

/-- **Run.** The reports of the checks of several applications are what their members report. -/
theorem map_undated_checkAll (h : probing.HasOutcome fun name uri => .report (report name uri))
    (clock : Nat → Timestamp) (s : Settings) (task now : Nat) (apps : List Application) :
    (checkAll probing s none task now apps).map (fun c => (c.report clock).undated) =
      apps.map (s.undatedReport report) := by
  induction apps generalizing task now with
  | nil => rfl
  | cons app apps ih =>
    rw [checkAll, List.map_cons, List.map_cons, ih, Check.undated_report_begin h]

/-- What a query is answered with depends on the settings and on what members report. -/
theorem Service.undatedAnswer_eq (h : probing.HasOutcome fun name uri => .report (report name uri))
    (v : Service) (clock : Nat → Timestamp) (s : Settings) (q : Query) :
    v.undatedAnswer probing clock s q =
      (q.applications s).map (List.map (s.undatedReport report)) := by
  rw [undatedAnswer, ask]
  cases q.applications s with
  | error e => rfl
  | ok apps => exact congrArg Except.ok (map_undated_checkAll h clock s v.nextTask 0 apps)

end

/-- **Answers in any order.** Valid settings whose health checks and applications are put in another
order are valid, look every name up alike, and find each entry under its own name. With probes that
report by name and URI alone, the query for a name is answered alike but for the moment of the
check, and the query for all applications gives each of them the report that it has in the first
order, at the place where it now stands. Health checks that no application refers to, put anywhere
among the others, change nothing that a query does, whatever the probes do and whenever it is
cancelled. -/
theorem Service.answers_in_any_order {s : Settings} (hvalid : s.validate = .ok ())
    {checks : List HealthCheck} {apps : List Application}
    (hchecks : checks.Perm s.healthChecks) (happs : apps.Perm s.applications)
    {report : (name uri : String) → MemberReport} {probing probing' : Probing}
    (hprobing : probing.HasOutcome fun name uri => .report (report name uri))
    (hprobing' : probing'.HasOutcome fun name uri => .report (report name uri))
    (v v' : Service) (clock clock' : Nat → Timestamp) :
    let s' : Settings := { s with healthChecks := checks, applications := apps }
    s'.validate = .ok () ∧
    (∀ name, s'.application? name = s.application? name ∧
      s'.memberUri? name = s.memberUri? name) ∧
    (∀ app ∈ s.applications, s.application? app.name = some app) ∧
    (∀ check ∈ s.healthChecks, s.memberUri? check.name = some check.uri) ∧
    (∀ name, v'.undatedAnswer probing' clock' s' (.get name) =
      v.undatedAnswer probing clock s (.get name)) ∧
    (∃ rs rs', v.undatedAnswer probing clock s .list = .ok rs ∧
      v'.undatedAnswer probing' clock' s' .list = .ok rs' ∧
      rs.length = s.applications.length ∧ rs'.length = apps.length ∧
      ∀ k k' : Nat, apps[k']? = s.applications[k]? → rs'[k']? = rs[k]?) ∧
    ∀ added checks' : List HealthCheck, checks'.Perm (s.healthChecks ++ added) →
      (∀ check ∈ added, ∀ app ∈ s.applications, check.name ∉ app.members) →
      ∀ (w : Service) (anyProbing : Probing) (cancelAt : Option Nat) (q : Query),
        w.ask anyProbing clock { s with healthChecks := checks' } cancelAt q =
          w.ask anyProbing clock s cancelAt q := by
  intro s'
  have hnone : s'.healthChecks.Perm (s.healthChecks ++ []) := by rwa [List.append_nil]
  have hmember (name : String) : s'.memberUri? name = s.memberUri? name :=
    Settings.memberUri?_eq_of_perm hvalid hnone (by simp)
  have happlication (name : String) : s'.application? name = s.application? name :=
    Settings.application?_eq_of_perm hvalid happs name
  have hreport : s'.undatedReport report = s.undatedReport report := by
    funext app
    simp only [Settings.undatedReport, Settings.targets, hmember]
  refine ⟨Settings.validate_of_perm hvalid hchecks happs,
    fun name => ⟨happlication name, hmember name⟩,
    fun app happ => (Settings.application?_eq_some_iff hvalid).mpr ⟨happ, rfl⟩,
    fun check hcheck => Settings.memberUri?_of_mem hvalid hcheck, fun name => ?_, ?_, ?_⟩
  · rw [undatedAnswer_eq hprobing, undatedAnswer_eq hprobing', hreport, Query.applications,
      Query.applications, happlication]
  · refine ⟨s.applications.map (s.undatedReport report), apps.map (s.undatedReport report),
      undatedAnswer_eq hprobing v clock s .list, ?_, List.length_map _, List.length_map _,
      fun k k' hk => ?_⟩
    · rw [undatedAnswer_eq hprobing', hreport]
      rfl
    · rw [List.getElem?_map, List.getElem?_map, hk]
  · intro added checks' hchecks' hunused w anyProbing cancelAt q
    have hmember' : ∀ app ∈ s.applications, ∀ name ∈ app.members,
        { s with healthChecks := checks' }.memberUri? name = s.memberUri? name := by
      intro app happ name hname
      refine Settings.memberUri?_eq_of_perm hvalid hchecks' fun check hcheck heq => ?_
      exact hunused check hcheck app happ (heq ▸ hname)
    have hsame : { s with healthChecks := checks' }.applications = s.applications := rfl
    exact ask_eq_of_memberUri? hsame hmember' w anyProbing clock cancelAt q

/-- Two checks and two applications change places, the probes take their time in the second order
only, and a check that nothing refers to comes between the two. -/
theorem Service.answers_in_any_order_of_two :
    let s : Settings :=
      { healthChecks := [⟨"a", "http://a"⟩, ⟨"b", "http://b"⟩]
        applications := [⟨"X", ["b", "ghost", "a"]⟩, ⟨"Y", ["b"]⟩] }
    let s' : Settings :=
      { s with healthChecks := s.healthChecks.reverse, applications := s.applications.reverse }
    let more : Settings :=
      { s with healthChecks := [⟨"a", "http://a"⟩, ⟨"new", "http://new"⟩, ⟨"b", "http://b"⟩] }
    let probing (delay : Nat) : Probing := fun _ => .timed fun name uri =>
      { delay := delay, outcome := .report ⟨name, uri, ⟨"Healthy"⟩, uri.length, none⟩ }
    let v : Service := { settings := s }
    let first (now : Nat) : Timestamp := ⟨now, 0⟩
    let later (now : Nat) : Timestamp := ⟨now + 60, 0⟩
    s.validate = .ok () ∧ s'.memberUri? "a" = some "http://a" ∧
    v.undatedAnswer (probing 5) later s' (.get "X") =
      v.undatedAnswer (probing 0) first s (.get "X") ∧
    (∃ rs rs', v.undatedAnswer (probing 0) first s .list = .ok rs ∧
      v.undatedAnswer (probing 5) later s' .list = .ok rs' ∧ rs'[1]? = rs[0]? ∧ rs'[0]? = rs[1]?) ∧
    v.ask (probing 5) later more (some 3) .list = v.ask (probing 5) later s (some 3) .list := by
  intro s s' more probing v first later
  have hvalid : s.validate = .ok () := by decide
  have houtcome (delay : Nat) : (probing delay).HasOutcome fun name uri =>
      .report ⟨name, uri, ⟨"Healthy"⟩, uri.length, none⟩ := fun _ _ _ _ => rfl
  obtain ⟨-, hlookup, -, -, hget, ⟨rs, rs', hrs, hrs', -, -, hmoved⟩, -⟩ :=
    answers_in_any_order hvalid s.healthChecks.reverse_perm s.applications.reverse_perm
      (houtcome 0) (houtcome 5) v v first later
  obtain ⟨-, -, -, -, -, -, hmore⟩ :=
    answers_in_any_order hvalid (.refl _) (.refl _) (houtcome 5) (houtcome 5) v v later later
  have hbetween : more.healthChecks.Perm (s.healthChecks ++ [⟨"new", "http://new"⟩]) :=
    .cons _ (.swap _ _ _)
  exact ⟨hvalid, (hlookup "a").2.trans (by decide), hget "X",
    ⟨rs, rs', hrs, hrs', hmoved 0 1 rfl, hmoved 1 0 rfl⟩,
    hmore _ _ hbetween (by decide) v (probing 5) (some 3) .list⟩

end ServiceHealth
