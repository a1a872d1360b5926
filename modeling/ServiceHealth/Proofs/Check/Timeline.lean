import ServiceHealth.Proofs.Check.Members
import ServiceHealth.Proofs.Prober
import ServiceHealth.Service

/-!
# The timeline of a list query

The members of an application are probed at the same time and its applications are checked one
after another, so a check starts at the maximum of the ends of the check before it. One signal
reaches all of them: a probe in flight ends when the signal fires, and a probe that is dispatched
later ends at once. `startTime` says when the checks start from the delays of the members alone,
`Check.endsAt_begin` that one check ends when the next one starts, and
`exists_getElem?_checkAll` that all checks therefore start at these times.

## Main definitions

* `endTime`, `nextStart`, `startTime` — the ends of probes and the starts of checks.
* `Probing.Takes` — probes that look at their signal first and otherwise take their time.
* `IsEntryOf` — the entry of a member by the time of its check.

## Main results

* `Service.ask_list_timeline` — the timeline of a list query that is cancelled at some time.
-/

namespace ServiceHealth

/-! ### Times -/

/-- When a probe that starts at `start` and takes `delay` ends: its own end or the moment its
signal fires, whichever comes first, and not before it starts. -/
def endTime (cancelAt : Option Nat) (start delay : Nat) : Nat :=
  match cancelAt with
  | none => start + delay
  | some c => min (start + delay) (max c start)

/-- When the check after one that starts at `start` begins: at the maximum of the ends of its
probes, or at once if there are none. -/
def nextStart (cancelAt : Option Nat) (start : Nat) (delays : List Nat) : Nat :=
  (delays.map (endTime cancelAt start)).max?.getD start

/-- When check number `k` starts, from the delays of the members of each application. -/
def startTime (cancelAt : Option Nat) (delays : List (List Nat)) (now : Nat) : Nat → Nat
  | 0 => now
  | k + 1 => nextStart cancelAt (startTime cancelAt delays now k) (delays.getD k [])

/-- The delays of the resolved members of each application. -/
def Settings.delays (s : Settings) (delay : (name uri : String) → Nat) : List (List Nat) :=
  s.applications.map fun app => (s.targets app).map fun target => delay target.1 target.2

/-- The signal reaches a probe that starts at `start` and takes `delay`: it has fired when the
probe starts, or it fires before the probe ends. -/
def Reaches (cancelAt : Option Nat) (start delay : Nat) : Prop :=
  ∃ c ∈ cancelAt, c ≤ start ∨ c < start + delay

/-- A probe does not end before it starts. -/
theorem le_endTime (cancelAt : Option Nat) (start delay : Nat) :
    start ≤ endTime cancelAt start delay := by
  cases cancelAt with
  | none => exact Nat.le_add_right start delay
  | some c =>
    rw [endTime]
    omega

/-- Without a signal a check lasts as long as its longest probe. -/
theorem nextStart_none (start : Nat) (delays : List Nat) :
    nextStart none start delays = start + delays.max?.getD 0 := by
  have hfold : ∀ (d : Nat) (ds : List Nat),
      (ds.map (endTime none start)).foldl max (start + d) = start + ds.foldl max d := by
    intro d ds
    induction ds generalizing d with
    | nil => rfl
    | cons d' ds ih =>
      rw [List.map_cons, List.foldl_cons, List.foldl_cons, ← ih, endTime, Nat.add_max_add_left]
  cases delays with
  | nil => rfl
  | cons d ds =>
    rw [nextStart, List.map_cons, List.max?_cons', List.max?_cons', Option.getD_some,
      Option.getD_some, ← hfold, endTime]

/-- Behind the first check the timeline is that of the other applications. -/
theorem startTime_cons (cancelAt : Option Nat) (ds : List Nat) (delays : List (List Nat))
    (now k : Nat) : startTime cancelAt (ds :: delays) now (k + 1) =
      startTime cancelAt delays (nextStart cancelAt now ds) k := by
  induction k with
  | zero => rfl
  | succ k ih => rw [startTime, ih, startTime, List.getD_cons_succ]

/-- A maximum that begins with a lower bound is the maximum. -/
theorem foldl_max_eq {l : List Nat} {start : Nat} (h : ∀ n ∈ l, start ≤ n) :
    l.foldl max start = l.max?.getD start := by
  cases l with
  | nil => rfl
  | cons n l =>
    rw [List.max?_cons', List.foldl_cons, Nat.max_eq_right (h n List.mem_cons_self)]
    rfl

/-! ### Probes -/

/-- Probes that look at their signal first, and otherwise take the delay of their member. -/
structure Probing.Takes (probing : Probing) (delay : (name uri : String) → Nat) : Prop where
  heeds : ∀ task, (probing task).HeedsSignal
  endsAt : ∀ task name uri start, (probing task name uri start none).endsAt = start + delay name uri

/-- Timed probers look at their signal first, and otherwise take the delay of their plan. -/
theorem Prober.takes_timed (plan : (name uri : String) → Plan) :
    Probing.Takes (timed plan) fun name uri => (plan name uri).delay where
  heeds _ := heedsSignal_timed plan
  endsAt _ _ _ _ := rfl

/-- The entry of a member in the report of a check from `start` to `finish`, and the task that
probed it: unless the signal and the own end of the probe come together, the probe is cancelled
just when the signal reaches it, and its report is otherwise the one without a signal. -/
structure IsEntryOf (probing : Probing) (cancelAt : Option Nat) (start finish delay : Nat)
    (target : String × String) (task : ProbeTask) (entry : MemberReport) : Prop where
  run : task.run = probing task.number target.1 target.2 start cancelAt
  endsAt : task.run.endsAt = endTime cancelAt start delay
  cancelled_iff : (∀ c ∈ cancelAt, c ≠ start + delay) →
    (task.run.cancelled = true ↔ Reaches cancelAt start delay)
  cancelled : Reaches cancelAt start delay →
    ∃ ms, entry = .unreachable target.1 target.2 ms cancelledPayload
  normal : (∀ c ∈ cancelAt, c ≠ start + delay) → ¬ Reaches cancelAt start delay →
    entry = match (probing task.number target.1 target.2 start none).outcome with
      | .report r => r
      | .panic message =>
        .unreachable target.1 target.2 (finish - start) (TaskPanic.text ⟨task.number, message⟩)

namespace Probing.Takes

variable {probing : Probing} {delay : (name uri : String) → Nat} {cancelAt : Option Nat}
  {task start : Nat} {name uri : String}

/-- A probe ends at its time. -/
theorem endsAt_eq (h : probing.Takes delay) :
    (probing task name uri start cancelAt).endsAt = endTime cancelAt start (delay name uri) := by
  cases cancelAt with
  | none => exact h.endsAt task name uri start
  | some c => rw [(h.heeds task).endsAt_eq, h.endsAt, endTime]

/-- A probe that its signal reaches is cancelled. -/
theorem cancelledAt (h : probing.Takes delay) (hreaches : Reaches cancelAt start (delay name uri)) :
    ∃ c, (probing task name uri start cancelAt).CancelledAt name uri start c := by
  obtain ⟨c, rfl, hc⟩ := hreaches
  rw [← h.endsAt task name uri start] at hc
  exact ⟨c, (h.heeds task).cancelledAt hc⟩

/-- A probe that its signal does not reach runs as if there were none, unless both come together. -/
theorem eq_none (h : probing.Takes delay) (htie : ∀ c ∈ cancelAt, c ≠ start + delay name uri)
    (hreaches : ¬ Reaches cancelAt start (delay name uri)) :
    probing task name uri start cancelAt = probing task name uri start none := by
  cases cancelAt with
  | none => rfl
  | some c =>
    have hne : c ≠ start + delay name uri := htie c rfl
    have hnot : ¬ (c ≤ start ∨ c < start + delay name uri) := fun hc => hreaches ⟨c, rfl, hc⟩
    refine (h.heeds task).eq_none_of_lt ?_
    rw [h.endsAt]
    omega

/-- The entry of a member is that of its time. -/
theorem isEntryOf (h : probing.Takes delay) (finish : Nat) :
    IsEntryOf probing cancelAt start finish (delay name uri) (name, uri)
      ⟨task, probing task name uri start cancelAt⟩
      (memberEntry (finish - start)
        (ProbeTask.result ⟨task, probing task name uri start cancelAt⟩) (name, uri)) where
  run := rfl
  endsAt := h.endsAt_eq
  cancelled_iff htie := by
    constructor
    · intro hcancelled
      by_contra hreaches
      have hruns := (h.heeds task).runs_on name uri start
      rw [← h.eq_none htie hreaches] at hruns
      exact absurd (hcancelled.symm.trans hruns) (by decide)
    · intro hreaches
      obtain ⟨c, hcancelled⟩ :
          ∃ c, (probing task name uri start cancelAt).CancelledAt name uri start c :=
        h.cancelledAt hreaches
      exact hcancelled.cancelled
  cancelled hreaches := by
    obtain ⟨c, hcancelled⟩ :
        ∃ c, (probing task name uri start cancelAt).CancelledAt name uri start c :=
      h.cancelledAt hreaches
    obtain ⟨ms, houtcome⟩ := hcancelled.outcome
    exact ⟨ms, by simp only [ProbeTask.result, houtcome, memberEntry]⟩
  normal htie hreaches := by
    simp only [ProbeTask.result, h.eq_none htie hreaches]
    cases (probing task name uri start none).outcome <;> rfl

end Probing.Takes

/-! ### One check -/

namespace Check

variable {probing : Probing} {delay : (name uri : String) → Nat}

/-- The targets of a check are the resolved members of its application. -/
theorem targets_begin (probing : Probing) (s : Settings) (cancelAt : Option Nat) (task now : Nat)
    (app : Application) : (Check.begin probing s cancelAt task now app).targets = s.targets app :=
  (dispatched_begin probing s cancelAt task now app).resolved.eq_filterMap

/-- A check has ended by a moment if it has begun and all its probes have ended by then. -/
theorem endsAt_le_iff {c : Check} {n : Nat} :
    c.endsAt ≤ n ↔ c.startedAt ≤ n ∧ ∀ t ∈ c.tasks, t.run.endsAt ≤ n := by
  obtain ⟨application, startedAt, targets, tasks⟩ := c
  simp only [endsAt]
  induction tasks generalizing startedAt with
  | nil => simp
  | cons t tasks ih =>
    rw [List.foldl_cons, ih, Nat.max_le, List.forall_mem_cons, and_assoc]

/-- A check whose probes end at their times ends when the next one starts. -/
theorem endsAt_begin {cancelAt : Option Nat} {now : Nat}
    (h : ∀ task name uri, (probing task name uri now cancelAt).endsAt =
      endTime cancelAt now (delay name uri)) (s : Settings) (task : Nat) (app : Application) :
    (Check.begin probing s cancelAt task now app).endsAt =
      nextStart cancelAt now ((s.targets app).map fun target => delay target.1 target.2) := by
  have hdispatched := dispatched_begin probing s cancelAt task now app
  rw [← targets_begin probing s cancelAt task now app]
  set c := Check.begin probing s cancelAt task now app
  have hends : c.tasks.map (·.run.endsAt) =
      (c.targets.map fun target => delay target.1 target.2).map (endTime cancelAt now) := by
    rw [hdispatched.tasks]
    refine List.ext_getElem (by simp) fun i hi hi' => ?_
    simp [taskOf, h]
  have hlow : ∀ n ∈ c.tasks.map (·.run.endsAt), now ≤ n := by
    rw [hends]
    intro n hn
    obtain ⟨d, -, rfl⟩ := List.mem_map.mp hn
    exact le_endTime cancelAt now d
  rw [endsAt, nextStart, ← hends, hdispatched.startedAt, ← foldl_max_eq hlow, List.foldl_map]

/-- The entries of a check are those of its time. -/
theorem isEntryOf_begin (h : probing.Takes delay) (s : Settings) (cancelAt : Option Nat)
    (task now : Nat) (clock : Nat → Timestamp) (app : Application) :
    let c := Check.begin probing s cancelAt task now app
    c.tasks.length = c.targets.length ∧ (c.report clock).members.length = c.targets.length ∧
    ∀ (i : Nat) target p entry, c.targets[i]? = some target → c.tasks[i]? = some p →
      (c.report clock).members[i]? = some entry →
      IsEntryOf probing cancelAt now c.endsAt (delay target.1 target.2) target p entry := by
  intro c
  have hdispatched : Dispatched probing s cancelAt task now app.members c :=
    dispatched_begin probing s cancelAt task now app
  refine ⟨hdispatched.length_tasks, ?_, ?_⟩
  · rw [hdispatched.members_report, List.length_mapIdx]
  intro i target p entry htarget hp hentry
  rw [hdispatched.tasks, List.getElem?_mapIdx, htarget] at hp
  rw [hdispatched.members_report, List.getElem?_mapIdx, htarget] at hentry
  obtain rfl := Option.some.inj hp
  obtain rfl := Option.some.inj hentry
  exact h.isEntryOf c.endsAt

end Check

/-! ### All checks -/

/-- **Step.** A check of probes that look at their signal first ends when the next one starts. -/
theorem Probing.Takes.endsAt_begin {probing : Probing} {delay : (name uri : String) → Nat}
    (h : probing.Takes delay) (s : Settings) (cancelAt : Option Nat) (task now : Nat)
    (app : Application) : (Check.begin probing s cancelAt task now app).endsAt =
      nextStart cancelAt now ((s.targets app).map fun target => delay target.1 target.2) := by
  have hends (number : Nat) (name uri : String) :
      (probing number name uri now cancelAt).endsAt = endTime cancelAt now (delay name uri) :=
    h.endsAt_eq
  exact Check.endsAt_begin hends s task app

/-- Checks end with those that follow the first one. -/
theorem endOf_cons (now : Nat) (c : Check) (cs : List Check) :
    endOf now (c :: cs) = endOf c.endsAt cs := by
  rw [endOf, List.getLast?_cons, endOf]
  cases cs.getLast? <;> rfl

/-- **Run.** Check number `k` begins at its time, and the last one ends at the time after it. -/
theorem exists_getElem?_checkAll {probing : Probing} {delay : (name uri : String) → Nat}
    (h : probing.Takes delay) (s : Settings) (cancelAt : Option Nat) (task now : Nat)
    (apps : List Application) :
    let delays := apps.map fun app => (s.targets app).map fun target => delay target.1 target.2
    let cs := checkAll probing s cancelAt task now apps
    (∀ (k : Nat) app, apps[k]? = some app → ∃ number, cs[k]? =
      some (Check.begin probing s cancelAt number (startTime cancelAt delays now k) app)) ∧
    endOf now cs = startTime cancelAt delays now apps.length := by
  induction apps generalizing task now with
  | nil => exact ⟨by simp, rfl⟩
  | cons app apps ih =>
    intro delays cs
    set c := Check.begin probing s cancelAt task now app
    have hend := h.endsAt_begin s cancelAt task now app
    obtain ⟨hchecks, hlast⟩ := ih (task + c.tasks.length) c.endsAt
    constructor
    · intro k app' happ
      cases k with
      | zero =>
        obtain rfl := Option.some.inj happ
        exact ⟨task, rfl⟩
      | succ k =>
        obtain ⟨number, hnumber⟩ := hchecks k app' happ
        refine ⟨number, hnumber.trans ?_⟩
        rw [hend, ← startTime_cons]
        rfl
    · have hcs : cs = c :: checkAll probing s cancelAt (task + c.tasks.length) c.endsAt apps := rfl
      rw [hcs, endOf_cons, hlast, hend, ← startTime_cons]
      rfl

/-- **The timeline of a list query.** With probes that look at their signal first and otherwise take
the delay of their member, a query for all applications whose signal fires at `cancelAt`, or never,
gives one report for each application in order. Check `k` starts at its time, when the last probe
of the check before it has ended, and all its probes start then; each ends at its own end or when
the signal fires. A probe is cancelled just when the signal has fired before it starts or fires
before it ends, and its report is otherwise the one without a signal. The query ends when its last
check does. -/
theorem Service.ask_list_timeline {probing : Probing} {delay : (name uri : String) → Nat}
    (h : probing.Takes delay) (v : Service) (clock : Nat → Timestamp) (s : Settings)
    (cancelAt : Option Nat) :
    let t := startTime cancelAt (s.delays delay) 0
    ∃ cs after, v.ask probing clock s cancelAt .list = (.ok cs, after) ∧
      cs.map (fun c => (c.report clock).name) = s.applications.map (·.name) ∧
      endOf 0 cs = t s.applications.length ∧
      ∀ (k : Nat) app c, s.applications[k]? = some app → cs[k]? = some c →
        c.startedAt = t k ∧ c.endsAt = t (k + 1) ∧ c.targets = s.targets app ∧
        c.tasks.length = c.targets.length ∧ (c.report clock).members.length = c.targets.length ∧
        ∀ (i : Nat) target p entry, c.targets[i]? = some target → c.tasks[i]? = some p →
          (c.report clock).members[i]? = some entry →
          IsEntryOf probing cancelAt (t k) (t (k + 1)) (delay target.1 target.2) target p
            entry := by
  intro t
  obtain ⟨hchecks, hlast⟩ := exists_getElem?_checkAll h s cancelAt v.nextTask 0 s.applications
  set cs := checkAll probing s cancelAt v.nextTask 0 s.applications
  refine ⟨cs, _, rfl, ?_, hlast, ?_⟩
  · refine List.ext_getElem? fun k => ?_
    rw [List.getElem?_map, List.getElem?_map]
    cases happ : s.applications[k]? with
    | none =>
      have hlength : cs.length = s.applications.length := length_checkAll ..
      rw [List.getElem?_eq_none_iff] at happ
      rw [List.getElem?_eq_none (by omega)]
      rfl
    | some app =>
      obtain ⟨number, hnumber⟩ := hchecks k app happ
      rw [hnumber, Option.map_some, Check.name_report]
      rfl
  · intro k app c happ hc
    obtain ⟨number, hnumber⟩ := hchecks k app happ
    obtain rfl := Option.some.inj (hc.symm.trans hnumber)
    have hnext : (Check.begin probing s cancelAt number (t k) app).endsAt = t (k + 1) := by
      have hdelays : (s.delays delay).getD k [] =
          (s.targets app).map fun target => delay target.1 target.2 := by
        simp [Settings.delays, List.getD_eq_getElem?_getD, happ]
      rw [h.endsAt_begin, ← hdelays]
      rfl
    obtain ⟨htasks, hmembers, hentries⟩ :=
      Check.isEntryOf_begin h s cancelAt number (t k) clock app
    rw [hnext] at hentries
    exact ⟨(Check.dispatched_begin probing s cancelAt number (t k) app).startedAt, hnext,
      Check.targets_begin probing s cancelAt number (t k) app, htasks, hmembers, hentries⟩

/-- A signal that fires while the second of two members is in flight: the first one has ended, the
second ends with the signal, and the member of the other application ends as soon as it starts. -/
theorem Service.ask_list_timeline_of_two_applications :
    let s : Settings :=
      { healthChecks := [⟨"a", "http://a"⟩, ⟨"b", "http://b"⟩, ⟨"c", "http://c"⟩]
        applications := [⟨"First", ["a", "ghost", "b"]⟩, ⟨"Second", ["c"]⟩] }
    let plan : (name uri : String) → Prober.Plan := fun name uri =>
      { delay := if name = "b" then 30 else 10
        outcome := .report ⟨name, uri, ⟨"Healthy"⟩, 10, none⟩, cancelledMs := 5 }
    let cancelled (name uri : String) : MemberReport := .unreachable name uri 5 "Request cancelled"
    ∃ cs after, (Service.ofSettings s false).ask (Prober.timed plan) (fun _ => default) s (some 15)
        .list = (.ok cs, after) ∧
      endOf 0 cs = 15 ∧
      cs.map (fun c => (c.report fun _ => default).members) =
        [[⟨"a", "http://a", ⟨"Healthy"⟩, 10, none⟩, cancelled "b" "http://b"],
          [cancelled "c" "http://c"]] := by
  intro s plan cancelled
  obtain ⟨cs, after, hask, -, hend, -⟩ := Service.ask_list_timeline (Prober.takes_timed plan)
    (Service.ofSettings s false) (fun _ => default) s (some 15)
  refine ⟨cs, after, hask, hend.trans (by decide +kernel), ?_⟩
  obtain rfl := Except.ok.inj (Prod.mk.inj hask).1
  simp only [Check.report_eq]
  decide +kernel

end ServiceHealth
