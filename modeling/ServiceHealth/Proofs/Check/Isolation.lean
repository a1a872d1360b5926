import ServiceHealth.Proofs.Check.Outcomes

/-!
# Failures stay with their member

Two queries for all applications are compared whose probes differ only in how those for one name
end: in any report instead of any other, or in a panic instead of a report. Each target has its own
task and its own entry, so the outcome of a probe reaches no entry but its own. What a check
measures of itself may differ all the same: when it began and, for a probe that panicked, how long
the check took and the number of the task. `Check.masked` puts something else in the place of
these, and the masked reports differ only in the entries of that name and in what summarizes them.

The two queries go through the applications side by side. One check after the other begins with
probes that still differ only in that name (`Probing.DifferAt.next`), either at the same moments, or
at moments that the other probes do not depend on.

## Main definitions

* `Check.outcomes`, `Check.masked` — how the probes of a check ended, and a report by them alone.
* `Probing.DifferAt` — probes that differ only in the outcomes for one name.

## Main results

* `Service.failures_stay_with_their_member` — how the reports of two such queries differ.
-/

namespace ServiceHealth

/-- The targets of an application bear names of its members. -/
theorem Settings.fst_mem_of_mem_targets {s : Settings} {app : Application}
    {target : String × String} (h : target ∈ s.targets app) : target.1 ∈ app.members := by
  obtain ⟨name, hname, htarget⟩ := List.mem_filterMap.mp h
  obtain ⟨_, -, rfl⟩ := Option.map_eq_some_iff.mp htarget
  exact hname

/-! ### Reports with masks -/

namespace Check

/-- How the probes of a check ended. -/
def outcomes (c : Check) : List Outcome := c.tasks.map (·.run.outcome)

/-- The report of a check with something else in the place of what the check measured. -/
def masked (mask : Measured) (c : Check) : ApplicationReport :=
  ⟨c.application, mask.checkedAt, (c.targets.zip c.outcomes).mapIdx fun i entry =>
    outcomeEntry mask.elapsedMs (mask.firstTask + i) entry.1 entry.2⟩

variable {probing : Probing} {s : Settings} {cancelAt : Option Nat} {task now : Nat}
  {names : List String} {c : Check}

/-- How the probe of each target ended. -/
theorem Dispatched.outcomes_eq (h : Dispatched probing s cancelAt task now names c) :
    c.outcomes = c.targets.mapIdx fun i target =>
      (probing (task + i) target.1 target.2 now cancelAt).outcome := by
  rw [outcomes, h.tasks]
  refine List.ext_getElem (by simp) fun i hi hi' => ?_
  simp [taskOf]

/-- The report of a check is the one with what it measured as the mask. -/
theorem Dispatched.report_eq_masked (h : Dispatched probing s cancelAt task now names c)
    (clock : Nat → Timestamp) :
    c.report clock = c.masked ⟨clock now, c.endsAt - now, task⟩ := by
  have hmembers : (c.report clock).members = (c.targets.zip c.outcomes).mapIdx fun i entry =>
      outcomeEntry (c.endsAt - now) (task + i) entry.1 entry.2 := by
    rw [h.members_report, h.outcomes_eq]
    refine List.ext_getElem (by simp) fun i hi hi' => ?_
    rw [List.length_mapIdx] at hi
    simp only [List.getElem_mapIdx, List.getElem_zip, ProbeTask.result, taskOf]
    cases (probing (task + i) c.targets[i].1 c.targets[i].2 now cancelAt).outcome <;> rfl
  have hreport : c.report clock = ⟨c.application, clock c.startedAt, (c.report clock).members⟩ := by
    rw [report_eq]
    rfl
  rw [hreport, hmembers, h.startedAt]
  rfl

/-- A masked report has an entry for each target. -/
theorem Dispatched.totalCount_masked (h : Dispatched probing s cancelAt task now names c)
    (mask : Measured) : (c.masked mask).totalCount = c.targets.length := by
  simp [masked, ApplicationReport.totalCount, h.outcomes_eq]

/-- The masks change no status. -/
theorem agreeExcept_masked (mask mask' : Measured) (c : Check) :
    (c.masked mask).AgreeExcept (fun _ => True) (c.masked mask') := by
  refine ⟨rfl, List.forall₂_of_length_eq_of_get (by simp [masked]) fun i hi hi' => ?_⟩
  simp only [masked, List.get_eq_getElem, List.getElem_mapIdx]
  exact agreeExcept_outcomeEntry (.inr fun _ _ => trivial)

/-- An entry of a masked report is made of its target and of how the probe ended. -/
theorem getElem?_members_masked (mask : Measured) {i : Nat} {target : String × String} {o : Outcome}
    (htarget : c.targets[i]? = some target) (ho : c.outcomes[i]? = some o) :
    (c.masked mask).members[i]? =
      some (outcomeEntry mask.elapsedMs (mask.firstTask + i) target o) := by
  have hentry : (c.targets.zip c.outcomes)[i]? = some (target, o) :=
    List.getElem?_zip_eq_some.mpr ⟨htarget, ho⟩
  rw [masked, List.getElem?_mapIdx, hentry]
  rfl

end Check

/-! ### Two queries -/

/-- Probes of two queries that differ only in the outcomes for one name, as far as they have the
numbers from `task` and from `task'` on and start at `now` and `now'` or later. Either they all end
at the same times, or the outcomes for other names do not depend on when the probes start. -/
inductive Probing.DifferAt (name : String) (probing probing' : Probing) :
    (task task' now now' : Nat) → Prop
  | together {task task' now : Nat}
      (ends : ∀ i member uri start, (probing (task + i) member uri start none).endsAt =
        (probing' (task' + i) member uri start none).endsAt)
      (outcome : ∀ i member uri start, member ≠ name →
        (probing (task + i) member uri start none).outcome =
          (probing' (task' + i) member uri start none).outcome) :
      DifferAt name probing probing' task task' now now
  | whenever {task task' now now' : Nat}
      (outcome : ∀ i member uri start start', member ≠ name →
        (probing (task + i) member uri start none).outcome =
          (probing' (task' + i) member uri start' none).outcome) :
      DifferAt name probing probing' task task' now now'

namespace Probing.DifferAt

variable {name : String} {probing probing' : Probing} {task task' now now' : Nat}

/-- Probes for other names that start now end alike. -/
theorem outcome_eq (h : DifferAt name probing probing' task task' now now') (i : Nat)
    {member : String} (uri : String) (hother : member ≠ name) :
    (probing (task + i) member uri now none).outcome =
      (probing' (task' + i) member uri now' none).outcome := by
  cases h with
  | together _ outcome => exact outcome i member uri now hother
  | whenever outcome => exact outcome i member uri now now' hother

/-- Checks whose probes end at the same times end at the same time. -/
theorem endsAt_begin_eq (hends : ∀ i member uri start,
      (probing (task + i) member uri start none).endsAt =
        (probing' (task' + i) member uri start none).endsAt) (s : Settings) (app : Application) :
    (Check.begin probing s none task now app).endsAt =
      (Check.begin probing' s none task' now app).endsAt := by
  have h := Check.dispatched_begin probing s none task now app
  have h' := Check.dispatched_begin probing' s none task' now app
  have htasks : (Check.begin probing s none task now app).tasks.map (·.run.endsAt) =
      (Check.begin probing' s none task' now app).tasks.map (·.run.endsAt) := by
    rw [h.tasks, h'.tasks, Check.targets_begin, Check.targets_begin]
    refine List.ext_getElem (by simp) fun i hi hi' => ?_
    simp [Check.taskOf, hends]
  have hfold (c : Check) : c.endsAt = (c.tasks.map (·.run.endsAt)).foldl max c.startedAt := by
    rw [List.foldl_map]
    rfl
  rw [hfold, hfold, htasks, h.startedAt, h'.startedAt]

/-- **Step.** Behind a check of the same application the probes still differ only in that name. -/
theorem next (h : DifferAt name probing probing' task task' now now') (s : Settings)
    (app : Application) :
    let c := Check.begin probing s none task now app
    let c' := Check.begin probing' s none task' now' app
    DifferAt name probing probing' (task + c.tasks.length) (task' + c'.tasks.length)
      c.endsAt c'.endsAt := by
  intro c c'
  have hlength : c'.tasks.length = c.tasks.length := by
    rw [Check.length_tasks_begin, Check.length_tasks_begin]
  rw [hlength]
  cases h with
  | together ends outcome =>
    have hend : c'.endsAt = c.endsAt := (endsAt_begin_eq ends s app).symm
    rw [hend]
    refine .together (fun i member uri start => ?_) fun i member uri start hother => ?_
    · rw [Nat.add_assoc, Nat.add_assoc]
      exact ends _ member uri start
    · rw [Nat.add_assoc, Nat.add_assoc]
      exact outcome _ member uri start hother
  | whenever outcome =>
    refine .whenever fun i member uri start start' hother => ?_
    rw [Nat.add_assoc, Nat.add_assoc]
    exact outcome _ member uri start start' hother

/-- **Run.** The check of each application begins with probes that differ only in that name. -/
theorem exists_getElem?_checkAll (h : DifferAt name probing probing' task task' now now')
    (s : Settings) {apps : List Application} {k : Nat} {app : Application}
    (hk : apps[k]? = some app) :
    ∃ first first' start start', DifferAt name probing probing' first first' start start' ∧
      (checkAll probing s none task now apps)[k]? =
        some (Check.begin probing s none first start app) ∧
      (checkAll probing' s none task' now' apps)[k]? =
        some (Check.begin probing' s none first' start' app) := by
  induction apps generalizing k task task' now now' with
  | nil => cases hk
  | cons next apps ih =>
    cases k with
    | zero =>
      obtain rfl : next = app := Option.some.inj hk
      exact ⟨task, task', now, now', h, rfl, rfl⟩
    | succ k => exact ih (h.next s next) hk

variable {s : Settings} {app : Application}

/-- The probe of a target with another name ends alike in the two checks of an application. -/
theorem exists_outcome (h : DifferAt name probing probing' task task' now now') {i : Nat}
    {target : String × String} (htarget : (s.targets app)[i]? = some target)
    (hother : target.1 ≠ name) :
    ∃ o, (Check.begin probing s none task now app).outcomes[i]? = some o ∧
      (Check.begin probing' s none task' now' app).outcomes[i]? = some o := by
  refine ⟨(probing (task + i) target.1 target.2 now none).outcome, ?_, ?_⟩
  · rw [(Check.dispatched_begin probing s none task now app).outcomes_eq, Check.targets_begin,
      List.getElem?_mapIdx, htarget]
    rfl
  · rw [(Check.dispatched_begin probing' s none task' now' app).outcomes_eq, Check.targets_begin,
      List.getElem?_mapIdx, htarget, h.outcome_eq i target.2 hother]
    rfl

/-- The two checks of an application without members of that name ended alike. -/
theorem masked_begin_eq (h : DifferAt name probing probing' task task' now now')
    (hmembers : name ∉ app.members) (mask : Measured) :
    (Check.begin probing s none task now app).masked mask =
      (Check.begin probing' s none task' now' app).masked mask := by
  have hd := Check.dispatched_begin probing s none task now app
  have hd' := Check.dispatched_begin probing' s none task' now' app
  have houtcomes : (Check.begin probing s none task now app).outcomes =
      (Check.begin probing' s none task' now' app).outcomes := by
    rw [hd.outcomes_eq, hd'.outcomes_eq, Check.targets_begin, Check.targets_begin]
    refine List.ext_getElem (by simp) fun i hi hi' => ?_
    rw [List.length_mapIdx] at hi
    rw [List.getElem_mapIdx, List.getElem_mapIdx]
    refine h.outcome_eq i _ fun heq => hmembers ?_
    exact heq ▸ Settings.fst_mem_of_mem_targets (List.getElem_mem hi)
  rw [Check.masked, Check.masked, houtcomes, Check.application_begin, Check.application_begin,
    Check.targets_begin, Check.targets_begin]

end Probing.DifferAt

/-! ### Lists of reports -/

/-- **A failure stays with its member.** Two queries for all applications are answered from the
same settings, without a signal, by probes that differ only in the outcomes for one name. Both lists
have one report for each application, in order. The two reports of an application bear its name and
have an entry for each of its targets. The entries of a target with another name come from one
outcome, so they are the same when its probe returned a report, and also when it panicked if the
time that passed and the number of the task are masked. The reports of an application without
members of that name are the same as a whole if these and the moment of the check are masked, and
have the same status and counts in any case. -/
theorem Service.failures_stay_with_their_member {name : String} {v v' : Service}
    {probing probing' : Probing}
    (h : Probing.DifferAt name probing probing' v.nextTask v'.nextTask 0 0) (s : Settings)
    (clock clock' : Nat → Timestamp) :
    ∃ cs cs', (v.ask probing clock s none .list).1 = .ok cs ∧
      (v'.ask probing' clock' s none .list).1 = .ok cs' ∧
      cs.length = s.applications.length ∧ cs'.length = s.applications.length ∧
      ∀ (k : Nat) (app : Application), s.applications[k]? = some app →
        ∃ c c' measured measured', cs[k]? = some c ∧ cs'[k]? = some c' ∧
          c.report clock = c.masked measured ∧ c'.report clock' = c'.masked measured' ∧
          (c.report clock).name = app.name ∧ (c'.report clock').name = app.name ∧
          (c.report clock).totalCount = (s.targets app).length ∧
          (c'.report clock').totalCount = (s.targets app).length ∧
          (∀ (i : Nat) (target : String × String), (s.targets app)[i]? = some target →
            target.1 ≠ name →
            (∀ r, c.outcomes[i]? = some (Outcome.report r) →
              (c.report clock).members[i]? = some r ∧ (c'.report clock').members[i]? = some r) ∧
            ∀ mask, ∃ entry, (c.masked mask).members[i]? = some entry ∧
              (c'.masked mask).members[i]? = some entry) ∧
          (name ∉ app.members →
            (∀ mask, c.masked mask = c'.masked mask) ∧
            (c.report clock).status = (c'.report clock').status ∧
            (c.report clock).healthyCount = (c'.report clock').healthyCount) := by
  refine ⟨_, _, rfl, rfl, length_checkAll .., length_checkAll .., fun k app hk => ?_⟩
  obtain ⟨first, first', start, start', hdiffer, hc, hc'⟩ := h.exists_getElem?_checkAll s hk
  set c := Check.begin probing s none first start app with hbegin
  set c' := Check.begin probing' s none first' start' app with hbegin'
  have hd : Check.Dispatched probing s none first start app.members c :=
    Check.dispatched_begin probing s none first start app
  have hd' : Check.Dispatched probing' s none first' start' app.members c' :=
    Check.dispatched_begin probing' s none first' start' app
  have htargets : c.targets = s.targets app := Check.targets_begin ..
  have htargets' : c'.targets = s.targets app := Check.targets_begin ..
  have hreport := hd.report_eq_masked clock
  have hreport' := hd'.report_eq_masked clock'
  refine ⟨c, c', _, _, hc, hc', hreport, hreport', Check.name_report .., Check.name_report ..,
    ?_, ?_, fun i target htarget hother => ?_, fun hmembers => ?_⟩
  · rw [hreport, hd.totalCount_masked, htargets]
  · rw [hreport', hd'.totalCount_masked, htargets']
  · obtain ⟨o, ho, ho'⟩ := hdiffer.exists_outcome htarget hother
    have hentry (mask : Measured) :=
      Check.getElem?_members_masked mask (htargets.symm ▸ htarget) ho
    have hentry' (mask : Measured) :=
      Check.getElem?_members_masked mask (htargets'.symm ▸ htarget) ho'
    refine ⟨fun r hr => ?_, fun mask => ⟨_, hentry mask, hentry' mask⟩⟩
    obtain rfl : o = .report r := Option.some.inj (ho.symm.trans hr)
    rw [hreport, hreport']
    exact ⟨hentry _, hentry' _⟩
  · have hmasked (mask : Measured) : c.masked mask = c'.masked mask :=
      hdiffer.masked_begin_eq hmembers mask
    have hagree : (c.report clock).AgreeExcept (fun _ => True) (c'.report clock') := by
      rw [hreport, hreport', ← hmasked]
      exact Check.agreeExcept_masked _ _ c
    exact ⟨hmasked, hagree.status_eq, hagree.healthyCount_eq⟩

/-- The probes of `bad` report in one query and panic later in the other, so that the second
application is checked at another time; a probe in it panics in both. -/
theorem Service.failures_stay_with_their_member_of_panic :
    let s : Settings :=
      { healthChecks := [⟨"a", "http://a"⟩, ⟨"bad", "http://bad"⟩, ⟨"c", "http://c"⟩]
        applications := [⟨"X", ["bad", "a", "ghost", "bad"]⟩, ⟨"Y", ["c", "a"]⟩, ⟨"Z", []⟩] }
    let probing (bad : Prober.Plan) : Probing := fun _ => .timed fun name uri =>
      if name = "bad" then bad
      else if name = "c" then { delay := 3, outcome := .panic (some "c") }
      else { delay := 2, outcome := .report ⟨name, uri, ⟨"Healthy"⟩, 2, none⟩ }
    let fine : Prober.Plan :=
      { delay := 10, outcome := .report ⟨"bad", "http://bad", ⟨"Healthy"⟩, 10, none⟩ }
    let broken : Prober.Plan := { delay := 500, outcome := .panic none }
    let v : Service := { settings := s }
    let v' : Service := { settings := s, nextTask := 40 }
    let result := (v.ask (probing fine) (fun _ => default) s none .list).1
    let result' := (v'.ask (probing broken) (fun _ => default) s none .list).1
    let statuses (cs : List Check) := cs.map fun c => (c.masked ⟨default, 0, 0⟩).status
    Probing.DifferAt "bad" (probing fine) (probing broken) v.nextTask v'.nextTask 0 0 ∧
    result.map statuses = .ok [.healthy, .unhealthy, .unknown] ∧
    result'.map statuses = .ok [.unhealthy, .unhealthy, .unknown] ∧
    ∃ cs cs' x x' y y', result = .ok cs ∧ result' = .ok cs' ∧
      cs[0]? = some x ∧ cs'[0]? = some x' ∧ cs[1]? = some y ∧ cs'[1]? = some y' ∧
      (x.report fun _ => default).members[1]? = some ⟨"a", "http://a", ⟨"Healthy"⟩, 2, none⟩ ∧
      (x'.report fun _ => default).members[1]? = some ⟨"a", "http://a", ⟨"Healthy"⟩, 2, none⟩ ∧
      ∀ mask, y.masked mask = y'.masked mask := by
  intro s probing fine broken v v' result result' statuses
  have hdiffer : Probing.DifferAt "bad" (probing fine) (probing broken) v.nextTask v'.nextTask
      0 0 := by
    refine .whenever fun _ member uri _ _ hother => ?_
    simp only [probing, Prober.timed, if_neg hother]
  obtain ⟨cs, cs', hresult, hresult', -, -, happs⟩ :=
    Service.failures_stay_with_their_member hdiffer s (fun _ => default) (fun _ => default)
  obtain ⟨x, x', -, -, hx, hx', -, -, -, -, -, -, hentries, -⟩ := happs 0 _ rfl
  obtain ⟨y, y', -, -, hy, hy', -, -, -, -, -, -, -, hwhole⟩ := happs 1 _ rfl
  have hfirst : cs[0]? = result.toOption.bind (·[0]?) := by
    rw [show result = .ok cs from hresult]
    rfl
  have houtcome : (result.toOption.bind (·[0]?)).bind (·.outcomes[1]?) =
      some (.report ⟨"a", "http://a", ⟨"Healthy"⟩, 2, none⟩) := by decide +kernel
  rw [← hfirst, hx] at houtcome
  have htarget : (s.targets ⟨"X", ["bad", "a", "ghost", "bad"]⟩)[1]? = some ("a", "http://a") := by
    decide +kernel
  have hentry := (hentries 1 _ htarget (by decide)).1 _ houtcome
  exact ⟨hdiffer, by decide +kernel, by decide +kernel, cs, cs', x, x', y, y', hresult, hresult',
    hx, hx', hy, hy', hentry.1, hentry.2, (hwhole (by decide)).1⟩

end ServiceHealth
