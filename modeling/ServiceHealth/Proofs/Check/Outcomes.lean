import Mathlib.Algebra.GroupWithZero.Nat
import ServiceHealth.Proofs.Check.Timeline
import ServiceHealth.Proofs.Metrics

/-!
# Reports by outcome

When the outcome of a probe depends on its member alone, the report of a check is a function of
the settings, of the outcomes and of what only the check itself can measure: the moment it began,
how long it took, and the numbers of its tasks. Only the first of these shows unless a probe
panics, and reports of the same application agree but for the durations of the members whose
probes do.

## Main definitions

* `Measured`, `Settings.reportFrom` — a report from outcomes and what is measured.
* `Service.afterReports` — a service after the checks that gave some reports.

## Main results

* `exists_map_report_checkAll` — the reports of the checks of several applications.
* `Settings.agreeExcept_reportFrom` — how the report depends on what is measured.
-/

namespace ServiceHealth

/-- What a check measures of itself: when it began, how long it took, and the number of its first
task. -/
structure Measured where
  checkedAt : Timestamp
  elapsedMs : Nat
  firstTask : Nat

/-- The entry of a target whose probe, task `task`, has this outcome. -/
def outcomeEntry (elapsed task : Nat) (target : String × String) : Outcome → MemberReport
  | .report r => r
  | .panic message => .unreachable target.1 target.2 elapsed (TaskPanic.text ⟨task, message⟩)

/-- The report of an application from the outcomes of its probes and what the check measured. -/
def Settings.reportFrom (s : Settings) (outcome : (name uri : String) → Outcome)
    (app : Application) (m : Measured) : ApplicationReport :=
  ⟨app.name, m.checkedAt, (s.targets app).mapIdx fun i target =>
    outcomeEntry m.elapsedMs (m.firstTask + i) target (outcome target.1 target.2)⟩

/-- The probe of some resolved member of these applications panics. -/
def Settings.Panics (s : Settings) (outcome : (name uri : String) → Outcome)
    (apps : List Application) (name : String) : Prop :=
  ∃ app ∈ apps, ∃ uri message, (name, uri) ∈ s.targets app ∧ outcome name uri = .panic message

/-- The outcome of every probe is that of its member, whatever its task and its start. -/
def Probing.HasOutcome (probing : Probing) (outcome : (name uri : String) → Outcome) : Prop :=
  ∀ task name uri start, (probing task name uri start none).outcome = outcome name uri

/-- How long a check takes: as long as the longest delay of a resolved member. -/
def Settings.duration (s : Settings) (delay : (name uri : String) → Nat) (app : Application) :
    Nat :=
  ((s.targets app).map fun target => delay target.1 target.2).max?.getD 0

/-- Every probe takes the delay of its member, whatever its task and its start. -/
def Probing.HasDelay (probing : Probing) (delay : (name uri : String) → Nat) : Prop :=
  ∀ task name uri start, (probing task name uri start none).endsAt = start + delay name uri

variable {s : Settings} {outcome : (name uri : String) → Outcome} {probing : Probing}

/-! ### Reports -/

/-- The report of a check is that of the outcomes. -/
theorem Check.report_begin (h : probing.HasOutcome outcome) (clock : Nat → Timestamp)
    (s : Settings) (task now : Nat) (app : Application) :
    let c := Check.begin probing s none task now app
    c.report clock = s.reportFrom outcome app ⟨clock now, c.endsAt - now, task⟩ := by
  intro c
  have hdispatched : Dispatched probing s none task now app.members c :=
    dispatched_begin probing s none task now app
  have hmembers : (c.report clock).members = (s.targets app).mapIdx fun i target =>
      outcomeEntry (c.endsAt - now) (task + i) target (outcome target.1 target.2) := by
    rw [hdispatched.members_report, targets_begin]
    refine congrArg (List.mapIdx · _) ?_
    funext i target
    simp only [ProbeTask.result, taskOf, h _ _ _ _]
    cases outcome target.1 target.2 <;> rfl
  have hreport : c.report clock =
      ⟨c.application, clock c.startedAt, (c.report clock).members⟩ := by
    rw [report_eq]
    rfl
  rw [hreport, hmembers, hdispatched.startedAt, application_begin]
  rfl

/-- A check has a task for each resolved member. -/
theorem Check.length_tasks_begin (probing : Probing) (s : Settings) (cancelAt : Option Nat)
    (task now : Nat) (app : Application) :
    (Check.begin probing s cancelAt task now app).tasks.length = (s.targets app).length := by
  rw [(dispatched_begin probing s cancelAt task now app).length_tasks, targets_begin]

/-- A check of probes that take the delays of their members lasts as long as the longest. -/
theorem Check.endsAt_begin_of_hasDelay {delay : (name uri : String) → Nat}
    (h : probing.HasDelay delay) (s : Settings) (task now : Nat) (app : Application) :
    (Check.begin probing s none task now app).endsAt = now + s.duration delay app := by
  have hends (number : Nat) (name uri : String) :
      (probing number name uri now none).endsAt = endTime none now (delay name uri) :=
    h number name uri now
  rw [endsAt_begin hends, nextStart_none, Settings.duration]

/-- **Run.** The reports of the checks of several applications are those of the outcomes, and so
are their durations if the delays of the probes are those of their members. -/
theorem exists_map_report_checkAll (h : probing.HasOutcome outcome) (clock : Nat → Timestamp)
    (s : Settings) (task now : Nat) (apps : List Application) :
    ∃ ms : List Measured, ms.length = apps.length ∧
      (checkAll probing s none task now apps).map (·.report clock) =
        List.zipWith (s.reportFrom outcome) apps ms ∧
      ∀ delay, probing.HasDelay delay → ms.map (·.elapsedMs) = apps.map (s.duration delay) := by
  induction apps generalizing task now with
  | nil => exact ⟨[], rfl, rfl, fun _ _ => rfl⟩
  | cons app apps ih =>
    set c := Check.begin probing s none task now app with hc
    obtain ⟨ms, hlength, hreports, hdelays⟩ := ih (task + c.tasks.length) c.endsAt
    refine ⟨⟨clock now, c.endsAt - now, task⟩ :: ms, ?_, ?_, ?_⟩
    · rw [List.length_cons, List.length_cons, hlength]
    · rw [checkAll, List.map_cons, ← hc, hreports, Check.report_begin h, List.zipWith_cons_cons]
    · intro delay hdelay
      have hduration : c.endsAt - now = s.duration delay app := by
        rw [hc, Check.endsAt_begin_of_hasDelay hdelay, Nat.add_sub_cancel_left]
      rw [List.map_cons, List.map_cons, hdelays delay hdelay, hduration]

/-- The checks of several applications have a task for each resolved member. -/
theorem sum_length_tasks_checkAll (probing : Probing) (s : Settings) (cancelAt : Option Nat)
    (task now : Nat) (apps : List Application) :
    ((checkAll probing s cancelAt task now apps).map (·.tasks.length)).sum =
      (apps.map fun app => (s.targets app).length).sum := by
  induction apps generalizing task now with
  | nil => rfl
  | cons app apps ih =>
    rw [checkAll, List.map_cons, List.map_cons, List.sum_cons, List.sum_cons, ih,
      Check.length_tasks_begin]

/-! ### What the measures change -/

variable {masked : String → Prop}

/-- The entry of a target depends on the measures only if its probe panics. -/
theorem agreeExcept_outcomeEntry {elapsed elapsed' task task' : Nat} {target : String × String}
    {o : Outcome} (h : elapsed = elapsed' ∨ ∀ message, o = .panic message → masked target.1) :
    (outcomeEntry elapsed task target o).AgreeExcept masked
      (outcomeEntry elapsed' task' target o) := by
  cases o with
  | report r => exact ⟨rfl, rfl, .inl rfl⟩
  | panic message => exact ⟨rfl, rfl, h.imp_right fun hpanic => hpanic message rfl⟩

/-- Reports from the same outcomes agree but for the durations of the members whose probes panic,
and in these too if the checks took as long. -/
theorem Settings.agreeExcept_reportFrom {app : Application} {m m' : Measured}
    (h : m.elapsedMs = m'.elapsedMs ∨ ∀ name, s.Panics outcome [app] name → masked name) :
    (s.reportFrom outcome app m).AgreeExcept masked (s.reportFrom outcome app m') := by
  refine ⟨rfl, List.forall₂_of_length_eq_of_get (by simp [reportFrom]) fun i hi hi' => ?_⟩
  simp only [reportFrom, List.get_eq_getElem, List.getElem_mapIdx]
  refine agreeExcept_outcomeEntry (h.imp_right fun hmasked message hpanic => hmasked _ ?_)
  exact ⟨app, List.mem_singleton_self app, _, message, List.getElem_mem _, hpanic⟩

/-- Reports of several applications from the same outcomes agree likewise. -/
theorem Settings.agreeExcept_zipWith_reportFrom {apps : List Application} {ms ms' : List Measured}
    (hlength : ms.length = apps.length) (hlength' : ms'.length = apps.length)
    (h : ms.map (·.elapsedMs) = ms'.map (·.elapsedMs) ∨
      ∀ name, s.Panics outcome apps name → masked name) :
    List.Forall₂ (ApplicationReport.AgreeExcept masked)
      (List.zipWith (s.reportFrom outcome) apps ms)
      (List.zipWith (s.reportFrom outcome) apps ms') := by
  refine List.forall₂_of_length_eq_of_get (by simp [hlength, hlength']) fun i hi hi' => ?_
  simp only [List.get_eq_getElem, List.getElem_zipWith]
  have hlt : i < apps.length := by
    rw [List.length_zipWith] at hi
    omega
  refine agreeExcept_reportFrom (h.imp (fun heq => ?_) fun hmasked name hpanics => hmasked name ?_)
  · have helapsed := List.getElem_of_eq heq (i := i) (by rwa [List.length_map, hlength])
    rwa [List.getElem_map, List.getElem_map] at helapsed
  · obtain ⟨app, happ, hrest⟩ := hpanics
    obtain rfl := List.mem_singleton.mp happ
    exact ⟨_, List.getElem_mem _, hrest⟩

/-! ### The service -/

namespace Service

/-- The service after checks of `tasks` tasks that gave these reports. -/
def afterReports (v : Service) (rs : List ApplicationReport) (tasks : Nat) : Service :=
  { v with
    metrics := v.metrics.map fun m => rs.foldl Metrics.record m
    nextTask := v.nextTask + tasks }

/-- Recording checks records their reports. -/
theorem record_countTasks (v : Service) (clock : Nat → Timestamp) (cs : List Check) :
    (v.record clock cs).countTasks cs =
      v.afterReports (cs.map (·.report clock)) (cs.map (·.tasks.length)).sum := by
  have htasks : ∀ task, cs.foldl (fun task c => task + c.tasks.length) task =
      task + (cs.map (·.tasks.length)).sum := by
    induction cs with
    | nil => exact fun _ => rfl
    | cons c cs ih =>
      intro task
      rw [List.foldl_cons, ih, List.map_cons, List.sum_cons, Nat.add_assoc]
  simp only [countTasks, record, afterReports, List.foldl_map, htasks]

/-- Reports after reports. -/
theorem afterReports_append (v : Service) (rs rs' : List ApplicationReport) (tasks tasks' : Nat) :
    (v.afterReports rs tasks).afterReports rs' tasks' =
      v.afterReports (rs ++ rs') (tasks + tasks') := by
  simp only [afterReports, Option.map_map, Nat.add_assoc, List.foldl_append]
  rfl

/-- No reports change nothing. -/
theorem afterReports_nil (v : Service) : v.afterReports [] 0 = v := by
  obtain ⟨settings, metrics, nextTask⟩ := v
  cases metrics <;> rfl

variable {rs rs' : List ApplicationReport}

/-- After reports that agree the metrics agree. -/
theorem metrics_afterReports (v : Service) (tasks : Nat)
    (hrs : List.Forall₂ (ApplicationReport.AgreeExcept masked) rs rs') :
    Option.Rel (Metrics.AgreeExcept masked) (v.afterReports rs tasks).metrics
      (v.afterReports rs' tasks).metrics := by
  rw [afterReports, afterReports]
  cases v.metrics with
  | none => exact .none
  | some m => exact .some ((Metrics.AgreeExcept.refl m).record hrs)

/-- After reports that agree without exception the services are the same. -/
theorem afterReports_eq (v : Service) (tasks : Nat)
    (hrs : List.Forall₂ (ApplicationReport.AgreeExcept fun _ => False) rs rs') :
    v.afterReports rs tasks = v.afterReports rs' tasks := by
  have hrecord : (fun m : Metrics => rs.foldl Metrics.record m) =
      fun m => rs'.foldl Metrics.record m :=
    funext fun m => ((Metrics.AgreeExcept.refl m).record hrs).eq
  rw [afterReports, afterReports, hrecord]

end Service

end ServiceHealth
