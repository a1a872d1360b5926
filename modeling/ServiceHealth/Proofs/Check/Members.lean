import Mathlib.Data.List.Basic
import Mathlib.Data.List.Induction
import ServiceHealth.Check
import ServiceHealth.Proofs.Join

/-!
# The members of a check

A check fills two lists side by side, its targets and its tasks, and puts the results of the
tasks beside the targets when all of them have ended. `Resolved` says which targets an
application has by the registry alone, `Check.Dispatched` what the two lists hold while the
check goes through the members, and `Check.Dispatched.dispatch` that one more member keeps it.

## Main results

* `Check.dispatched_begin` — the targets of a check are the resolved members, and task `i`
  probes target `i`.
* `Check.reportAfter?_eq` — there is a report once every task has ended, and it does not
  depend on the order of the ends.
* `Check.begin_reports_each_occurrence` — the report has one entry for each registered
  occurrence of a member, in configured order.
-/

namespace ServiceHealth

/-! ### Resolving members -/

/-- The first health check of this name has this URI. -/
def FirstRegistration (s : Settings) (name uri : String) : Prop :=
  ∃ before check after, s.healthChecks = before ++ check :: after ∧
    check.name = name ∧ check.uri = uri ∧ ∀ other ∈ before, other.name ≠ name

/-- A health check of this name exists. -/
def IsRegistered (s : Settings) (name : String) : Prop :=
  ∃ check ∈ s.healthChecks, check.name = name

instance (s : Settings) (name : String) : Decidable (IsRegistered s name) :=
  inferInstanceAs (Decidable (∃ check ∈ s.healthChecks, check.name = name))

/-- The targets of a list of members: each occurrence of a registered name, with the URI of the
first registration; a name that is not registered has none. -/
inductive Resolved (s : Settings) : List String → List (String × String) → Prop
  | nil : Resolved s [] []
  | registered {name uri names targets} :
      FirstRegistration s name uri → Resolved s names targets →
      Resolved s (name :: names) ((name, uri) :: targets)
  | unregistered {name names targets} :
      ¬ IsRegistered s name → Resolved s names targets → Resolved s (name :: names) targets

/-- Looking a member up finds its first registration. -/
theorem memberUri?_eq_some_iff {s : Settings} {name uri : String} :
    s.memberUri? name = some uri ↔ FirstRegistration s name uri := by
  simp only [Settings.memberUri?, Option.map_eq_some_iff, List.find?_eq_some_iff_append,
    FirstRegistration]
  constructor
  · rintro ⟨check, ⟨hname, before, after, hsplit, hbefore⟩, huri⟩
    exact ⟨before, check, after, hsplit, by simpa using hname, huri, by simpa using hbefore⟩
  · rintro ⟨before, check, after, hsplit, hname, huri, hbefore⟩
    exact ⟨check, ⟨by simpa using hname, before, after, hsplit, by simpa using hbefore⟩, huri⟩

/-- Looking a member up finds nothing just when it is not registered. -/
theorem memberUri?_eq_none_iff {s : Settings} {name : String} :
    s.memberUri? name = none ↔ ¬ IsRegistered s name := by
  simp [Settings.memberUri?, IsRegistered]

/-- The targets of members that follow each other. -/
theorem Resolved.append {s : Settings} {names names' : List String}
    {targets targets' : List (String × String)} (h : Resolved s names targets)
    (h' : Resolved s names' targets') : Resolved s (names ++ names') (targets ++ targets') := by
  induction h with
  | nil => exact h'
  | registered hfirst _ ih => exact .registered hfirst ih
  | unregistered hnot _ ih => exact .unregistered hnot ih

/-- The names of the targets are the registered names, in order and as often as they occur. -/
theorem Resolved.map_fst {s : Settings} {names : List String} {targets : List (String × String)}
    (h : Resolved s names targets) :
    targets.map Prod.fst = names.filter fun name => IsRegistered s name := by
  induction h with
  | nil => rfl
  | @registered name uri names targets hfirst _ ih =>
    obtain ⟨before, check, after, hsplit, hname, -, -⟩ := hfirst
    have hreg : IsRegistered s name := ⟨check, by simp [hsplit], hname⟩
    simp [hreg, ih]
  | unregistered hnot _ ih => simp [hnot, ih]

/-- Resolving members is looking them up one after another. -/
theorem Resolved.eq_filterMap {s : Settings} {names : List String}
    {targets : List (String × String)} (h : Resolved s names targets) :
    targets = names.filterMap fun name => (s.memberUri? name).map (name, ·) := by
  induction h with
  | nil => rfl
  | registered hfirst _ ih => simp [memberUri?_eq_some_iff.mpr hfirst, ← ih]
  | unregistered hnot _ ih => simp [memberUri?_eq_none_iff.mpr hnot, ← ih]

/-- The registered names alone determine the targets. -/
theorem Resolved.unique {s : Settings} {names names' : List String}
    {targets targets' : List (String × String)} (h : Resolved s names targets)
    (h' : Resolved s names' targets')
    (hnames : (names.filter fun name => IsRegistered s name) =
      names'.filter fun name => IsRegistered s name) : targets = targets' := by
  have hfilter : ∀ names : List String,
      (names.filterMap fun name => (s.memberUri? name).map (name, ·)) =
        (names.filter fun name => IsRegistered s name).filterMap
          fun name => (s.memberUri? name).map (name, ·) := by
    intro names
    rw [List.filterMap_filter]
    refine List.filterMap_congr fun name _ => ?_
    by_cases hreg : IsRegistered s name
    · simp [hreg]
    · simp [hreg, memberUri?_eq_none_iff.mpr hreg]
  rw [h.eq_filterMap, h'.eq_filterMap, hfilter names, hfilter names', hnames]

/-! ### Dispatching -/

namespace Check

/-- The task that probes target `i` of a check begun at `now`. -/
def taskOf (probing : Probing) (cancelAt : Option Nat) (task now : Nat) (i : Nat)
    (target : String × String) : ProbeTask :=
  ⟨task + i, probing (task + i) target.1 target.2 now cancelAt⟩

/-- A check that has gone through some members: its targets are theirs, and its tasks stand
beside the targets that they probe. -/
structure Dispatched (probing : Probing) (s : Settings) (cancelAt : Option Nat) (task now : Nat)
    (names : List String) (c : Check) : Prop where
  startedAt : c.startedAt = now
  resolved : Resolved s names c.targets
  tasks : c.tasks = c.targets.mapIdx (taskOf probing cancelAt task now)

variable {probing : Probing} {s : Settings} {cancelAt : Option Nat} {task now : Nat}
  {names : List String} {c : Check}

/-- The two lists are equally long. -/
theorem Dispatched.length_tasks (h : Dispatched probing s cancelAt task now names c) :
    c.tasks.length = c.targets.length := by
  simp [h.tasks]

/-- **Step.** One more member keeps targets and tasks side by side. -/
theorem Dispatched.dispatch (h : Dispatched probing s cancelAt task now names c)
    (member : String) :
    Dispatched probing s cancelAt task now (names ++ [member])
      (c.dispatch probing s cancelAt task member) := by
  unfold Check.dispatch
  cases hfound : s.memberUri? member with
  | none =>
    have hnot := memberUri?_eq_none_iff.mp hfound
    refine ⟨h.startedAt, ?_, h.tasks⟩
    simpa using h.resolved.append (.unregistered hnot .nil)
  | some uri =>
    have hfirst := memberUri?_eq_some_iff.mp hfound
    refine ⟨h.startedAt, h.resolved.append (.registered hfirst .nil), ?_⟩
    simp [h.startedAt, h.tasks, taskOf]

/-- The application of a check stays the same while members are dispatched. -/
theorem application_dispatch (member : String) :
    (c.dispatch probing s cancelAt task member).application = c.application := by
  unfold Check.dispatch
  cases s.memberUri? member <;> rfl

/-- **Run.** A check has gone through all members of its application. -/
theorem dispatched_begin (probing : Probing) (s : Settings) (cancelAt : Option Nat)
    (task now : Nat) (app : Application) :
    Dispatched probing s cancelAt task now app.members
      (Check.begin probing s cancelAt task now app) := by
  unfold Check.begin
  induction app.members using List.reverseRecOn with
  | nil => exact ⟨rfl, .nil, rfl⟩
  | append_singleton names member ih =>
    rw [List.foldl_append]
    exact ih.dispatch member

/-- A check is that of its application. -/
theorem application_begin (probing : Probing) (s : Settings) (cancelAt : Option Nat)
    (task now : Nat) (app : Application) :
    (Check.begin probing s cancelAt task now app).application = app.name := by
  unfold Check.begin
  induction app.members using List.reverseRecOn with
  | nil => rfl
  | append_singleton names member ih =>
    rw [List.foldl_append]
    exact (application_dispatch member).trans ih

/-- Members that are not registered leave no trace in a check. -/
theorem begin_congr {app app' : Application} (hname : app'.name = app.name)
    (hmembers : (app'.members.filter fun name => IsRegistered s name) =
      app.members.filter fun name => IsRegistered s name) :
    Check.begin probing s cancelAt task now app' = Check.begin probing s cancelAt task now app := by
  have h := dispatched_begin probing s cancelAt task now app
  have h' := dispatched_begin probing s cancelAt task now app'
  have htargets := h'.resolved.unique h.resolved hmembers
  refine Check.ext ?_ (h'.startedAt.trans h.startedAt.symm) htargets ?_
  · rw [application_begin, application_begin, hname]
  · rw [h'.tasks, h.tasks, htargets]

/-! ### Reporting -/

/-- Every task is among those that end. -/
theorem mem_endOrder {i : Nat} (hi : i < c.tasks.length) : i ∈ c.endOrder := by
  unfold endOrder
  simp [hi]

/-- The report of a check is that of the results of all its tasks. -/
theorem report_eq (clock : Nat → Timestamp) (c : Check) :
    c.report clock = c.reportOf clock c.results := by
  have hall : ∀ i < c.results.length, i ∈ c.endOrder := by
    intro i hi
    exact mem_endOrder (by simpa [results] using hi)
  simp [report, reportAfter?, Join.results?_run, if_pos hall]

/-- Before the last task has ended there is no report; then it is the report of the check,
whatever the order in which the tasks have ended. -/
theorem reportAfter?_eq (clock : Nat → Timestamp) (c : Check) (order : List Nat) :
    c.reportAfter? clock order =
      if ∀ i < c.tasks.length, i ∈ order then some (c.report clock) else none := by
  have hlen : c.results.length = c.tasks.length := by simp [results]
  rw [reportAfter?, Join.results?_run, report_eq, hlen]
  split <;> rfl

/-- The report of a check bears the name of its application. -/
theorem report_name (clock : Nat → Timestamp) (c : Check) :
    (c.report clock).name = c.application := by
  rw [report_eq, reportOf]

/-- The report of a check that has begun bears the name of the application. -/
theorem name_report (probing : Probing) (s : Settings) (cancelAt : Option Nat) (task now : Nat)
    (clock : Nat → Timestamp) (app : Application) :
    ((Check.begin probing s cancelAt task now app).report clock).name = app.name := by
  rw [report_name, application_begin]

/-- The clock shows in nothing but the moment of the check. -/
theorem report_clock (clock clock' : Nat → Timestamp) (c : Check) :
    c.report clock' = { c.report clock with checkedAt := clock' c.startedAt } := by
  rw [report_eq, report_eq]
  rfl

/-- Results beside targets: the entry of target `i` is made from the result of task `i`. -/
theorem Dispatched.members_report (h : Dispatched probing s cancelAt task now names c)
    (clock : Nat → Timestamp) :
    (c.report clock).members = c.targets.mapIdx fun i target =>
      memberEntry (c.endsAt - now) (taskOf probing cancelAt task now i target).result target := by
  rw [report_eq, reportOf, results, h.tasks, h.startedAt]
  refine List.ext_getElem (by simp) fun i hi hi' => ?_
  simp

/-- **The report of a check.** Its targets are the occurrences of registered members, each with
the URI of the first registration, and target `i` is probed by task `i` alone. There is no
report before every task has ended, and then it is the same for every order of the ends: entry
`i` is what the probe of target `i` returned or, if that probe panicked, a member under the name
and the URI of target `i` that cannot be reached. Members that are not registered change
nothing, wherever they stand. -/
theorem begin_reports_each_occurrence (probing : Probing) (s : Settings) (cancelAt : Option Nat)
    (task now : Nat) (clock : Nat → Timestamp) (app : Application) :
    let c := Check.begin probing s cancelAt task now app
    Resolved s app.members c.targets ∧
    c.targets.map Prod.fst = (app.members.filter fun name => IsRegistered s name) ∧
    c.tasks = (c.targets.mapIdx fun i target =>
      ⟨task + i, probing (task + i) target.1 target.2 now cancelAt⟩) ∧
    (∀ order, c.reportAfter? clock order =
      if ∀ i < c.targets.length, i ∈ order then some (c.report clock) else none) ∧
    (c.report clock).members = (c.targets.mapIdx fun i target =>
      match (probing (task + i) target.1 target.2 now cancelAt).outcome with
      | .report r => r
      | .panic message => .unreachable target.1 target.2 (c.endsAt - now)
          (TaskPanic.text ⟨task + i, message⟩)) ∧
    (∀ (app' : Application) (clock' : Nat → Timestamp), app'.name = app.name →
      (app'.members.filter fun name => IsRegistered s name) =
        (app.members.filter fun name => IsRegistered s name) →
      (Check.begin probing s cancelAt task now app').report clock' =
        { c.report clock with checkedAt := clock' now }) := by
  intro c
  have h := dispatched_begin probing s cancelAt task now app
  refine ⟨h.resolved, h.resolved.map_fst, h.tasks, ?_, ?_, ?_⟩
  · intro order
    rw [reportAfter?_eq, h.length_tasks]
  · rw [h.members_report]
    congr 1
    funext i target
    simp only [ProbeTask.result, taskOf]
    cases (probing (task + i) target.1 target.2 now cancelAt).outcome <;> rfl
  · intro app' clock' hname hmembers
    rw [begin_congr hname hmembers, report_clock clock clock', h.startedAt]

/-- Three probes of two members: the first occurrence of `a` panics, the second does not, the
probes end in the reverse of their order, and names that are not registered stand around them. -/
theorem report_of_repeated_members :
    let s : Settings :=
      { healthChecks := [⟨"a", "http://a/1"⟩, ⟨"b", "http://b"⟩, ⟨"a", "http://a/2"⟩] }
    let probing : Probing := fun task name uri start _ =>
      { endsAt := start + 50 - task
        outcome := if task = 7 then .panic (some "boom")
          else .report ⟨name, uri, ⟨"Healthy"⟩, task, none⟩ }
    let plain : Application := ⟨"App", ["a", "b", "a"]⟩
    let mixed : Application := ⟨"App", ["ghost", "a", "b", "ghost", "a"]⟩
    let c := Check.begin probing s none 7 100 plain
    mixed.name = plain.name ∧
    (mixed.members.filter fun name => IsRegistered s name) =
      (plain.members.filter fun name => IsRegistered s name) ∧
    c.reportAfter? (fun _ => default) [2, 1, 0] = some (c.report fun _ => default) ∧
    (c.report fun _ => default).members =
      [.unreachable "a" "http://a/1" 43 "task 7 panicked with message \"boom\"",
        ⟨"b", "http://b", ⟨"Healthy"⟩, 8, none⟩, ⟨"a", "http://a/1", ⟨"Healthy"⟩, 9, none⟩] ∧
    (Check.begin probing s none 7 100 mixed).report (fun _ => default) =
      { c.report fun _ => default with checkedAt := default } := by
  intro s probing plain mixed c
  have hname : mixed.name = plain.name := rfl
  have hmembers : (mixed.members.filter fun name => IsRegistered s name) =
      (plain.members.filter fun name => IsRegistered s name) := by decide
  obtain ⟨-, -, -, hjoin, hentries, hghosts⟩ :=
    begin_reports_each_occurrence probing s none 7 100 (fun _ => default) plain
  refine ⟨hname, hmembers, (hjoin [2, 1, 0]).trans (if_pos (by decide)), ?_,
    hghosts mixed (fun _ => default) hname hmembers⟩
  exact hentries.trans (by decide +kernel)

end Check

/-- There is one check for each application. -/
theorem length_checkAll (probing : Probing) (s : Settings) (cancelAt : Option Nat)
    (task now : Nat) (apps : List Application) :
    (checkAll probing s cancelAt task now apps).length = apps.length := by
  induction apps generalizing task now with
  | nil => rfl
  | cons app apps ih => rw [checkAll, List.length_cons, List.length_cons, ih]

/-- The checks are of the applications, in their order. -/
theorem map_application_checkAll (probing : Probing) (s : Settings) (cancelAt : Option Nat)
    (task now : Nat) (apps : List Application) :
    (checkAll probing s cancelAt task now apps).map (·.application) = apps.map (·.name) := by
  induction apps generalizing task now with
  | nil => rfl
  | cons app apps ih => rw [checkAll, List.map_cons, List.map_cons, ih, Check.application_begin]

end ServiceHealth
