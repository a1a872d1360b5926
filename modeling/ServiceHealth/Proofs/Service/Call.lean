import Mathlib.Algebra.GroupWithZero.Nat
import Mathlib.Data.Finset.Card
import Mathlib.Data.Finset.Range
import ServiceHealth.Proofs.Check.Members
import ServiceHealth.Proofs.Service

/-!
# Calls while settings change

A call answers a query turn by turn. It takes its snapshot at its start, looks up in it which
applications are asked for, resolves the members of an application one by one and dispatches a
probe for each, and records the check and goes on once all of its probes have ended. Before,
between and after any of these turns a probe may end and other settings may be stored.

Storing settings commutes with every other event (`Call.react_swap`), so the stores can be taken
out of a run without a change to anything but the settings that are current (`Call.foldl_react`).
What a call has checked and has still to check stays the same in every turn
(`Call.Sound.advance`), so in the end it is what the query asks of the snapshot
(`Call.sound_during`).

## Main definitions

* `Call`, `Call.Event`, `Call.react`, `Call.during` — a call, what happens to it, and all that
  happens from its start.
* `Call.outcome` — what a call has checked and has still to check.
* `Call.Sound` — the invariant.

## Main results

* `Call.isolated_from_stores` — a call depends on no settings but those of its snapshot, and the
  next one on those that were stored last.
-/

namespace ServiceHealth

/-- A report that there is, after tasks have ended in some order, is the report of the check. -/
theorem Check.report_of_reportAfter? {clock : Nat → Timestamp} {c : Check} {order : List Nat}
    {r : ApplicationReport} (h : c.reportAfter? clock order = some r) : c.report clock = r := by
  rw [reportAfter?_eq] at h
  split at h
  · exact Option.some.inj h
  · simp at h

/-- A check under way: what has been dispatched so far and the number of the first task, the
members still to come, and the tasks that have ended, in that order. -/
structure Checking where
  check : Check
  task : Nat
  members : List String
  ended : List Nat := []
  deriving DecidableEq, Repr

/-- Where a call stands: before it has looked its applications up, before the check of the first of
several applications, within a check, or at its end. -/
inductive Call.Standing
  | asked (q : Query)
  | between (apps : List Application)
  | checking (c : Checking) (rest : List Application)
  | answered (result : Except NotFound (List ApplicationReport))
  deriving DecidableEq, Repr

/-- A call: the service that it shares with others, its own snapshot of the settings, where it
stands and since when, the checks that it has recorded, and their reports. -/
structure Call where
  service : Service
  snapshot : Settings
  standing : Call.Standing
  now : Nat := 0
  finished : List Check := []
  reports : List ApplicationReport := []
  deriving DecidableEq, Repr

namespace Call

/-- What a call meets: what its probes do, the clock, and when its signal fires. -/
structure World where
  probing : Probing
  clock : Nat → Timestamp
  cancelAt : Option Nat := none

/-- What happens: the call has a turn, a task of its check ends, or other settings are stored. -/
inductive Event
  | advance
  | ends (i : Nat)
  | store (s : Settings)
  deriving DecidableEq, Repr

/-- The settings that an event stores. -/
def Event.stored : Event → List Settings
  | .store s => [s]
  | _ => []

/-- An event stores settings. -/
def Event.isStore (e : Event) : Bool := !e.stored.isEmpty

/-- A call at its start takes its snapshot. -/
def start (v : Service) (q : Query) : Call :=
  { service := v, snapshot := v.settings, standing := .asked q }

/-- A turn of the call. Members are looked up in the snapshot. A check is recorded when each of its
tasks has ended, and until then the call waits. -/
def advance (w : World) (x : Call) : Call :=
  match x.standing with
  | .asked q =>
    match q.applications x.snapshot with
    | .error e => { x with standing := .answered (.error e) }
    | .ok apps => { x with standing := .between apps }
  | .between [] => { x with standing := .answered (.ok x.reports) }
  | .between (app :: rest) =>
    let check : Check := { application := app.name, startedAt := x.now }
    { x with standing := .checking ⟨check, x.service.nextTask, app.members, []⟩ rest }
  | .checking ⟨c, task, member :: members, ended⟩ rest =>
    let check := c.dispatch w.probing x.snapshot w.cancelAt task member
    { x with
      standing := .checking ⟨check, task, members, ended⟩ rest
      service := { x.service with nextTask := task + check.tasks.length } }
  | .checking ⟨c, _, [], ended⟩ rest =>
    match c.reportAfter? w.clock ended with
    | none => x
    | some report =>
      { x with
        standing := .between rest
        now := c.endsAt
        finished := x.finished ++ [c]
        reports := x.reports ++ [report]
        service := { x.service with metrics := x.service.metrics.map (·.record report) } }
  | .answered _ => x

/-- A task that has been dispatched ends. -/
def finishTask (x : Call) (i : Nat) : Call :=
  match x.standing with
  | .checking c rest =>
    if i < c.check.tasks.length then
      { x with standing := .checking { c with ended := c.ended ++ [i] } rest }
    else x
  | _ => x

/-- Other settings become current. -/
def swap (x : Call) (s : Settings) : Call := { x with service := x.service.swap s }

/-- One event. -/
def react (w : World) (x : Call) : Event → Call
  | .advance => x.advance w
  | .ends i => x.finishTask i
  | .store s => x.swap s

/-- All that happens from the start of a call. -/
def during (w : World) (v : Service) (q : Query) (events : List Event) : Call :=
  events.foldl (react w) (start v q)

/-- The checks of a call: those that it has recorded, then the one under way. -/
def dispatched (x : Call) : List Check :=
  match x.standing with
  | .checking c _ => x.finished ++ [c.check]
  | _ => x.finished

/-- The targets that a call has probed. -/
def probed (x : Call) : List (String × String) := x.dispatched.flatMap (·.targets)

variable {w : World} {v : Service} {q : Query} {x : Call}

/-! ### Stores -/

/-- The settings that were stored last are current. -/
@[simp] theorem settings_swap (x : Call) (s : Settings) : (x.swap s).service.settings = s := rfl

/-- Of two settings that are stored one after the other the second are current. -/
@[simp] theorem swap_swap (x : Call) (s s' : Settings) : (x.swap s).swap s' = x.swap s' := rfl

/-- Storing the settings that are current changes nothing. -/
@[simp] theorem swap_settings (x : Call) : x.swap x.service.settings = x := rfl

/-- A turn is the same whatever settings are current. -/
theorem advance_swap (w : World) (x : Call) (s : Settings) :
    (x.swap s).advance w = (x.advance w).swap s := by
  obtain ⟨service, snapshot, standing, now, finished, reports⟩ := x
  cases standing with
  | asked q =>
    simp only [advance, swap]
    cases q.applications snapshot <;> rfl
  | between apps => cases apps <;> rfl
  | checking c rest =>
    obtain ⟨check, task, members, ended⟩ := c
    cases members with
    | cons member members => rfl
    | nil =>
      simp only [advance, swap]
      cases check.reportAfter? w.clock ended <;> rfl
  | answered result => rfl

/-- A task ends the same way whatever settings are current. -/
theorem finishTask_swap (x : Call) (s : Settings) (i : Nat) :
    (x.swap s).finishTask i = (x.finishTask i).swap s := by
  obtain ⟨service, snapshot, standing, now, finished, reports⟩ := x
  cases standing with
  | checking c rest =>
    simp only [finishTask, swap]
    split <;> rfl
  | _ => rfl

/-- **Step.** Storing settings commutes with every event that is no store. -/
theorem react_swap (w : World) (x : Call) (s : Settings) {e : Event} (he : e.isStore = false) :
    (x.swap s).react w e = (x.react w e).swap s := by
  cases e with
  | advance => exact advance_swap w x s
  | ends i => exact finishTask_swap x s i
  | store s' => simp [Event.isStore, Event.stored] at he

/-- An event that is no store keeps the settings that are current. -/
theorem settings_react (w : World) (x : Call) {e : Event} (he : e.isStore = false) :
    (x.react w e).service.settings = x.service.settings := by
  conv_lhs => rw [← swap_settings x, react_swap w x _ he, settings_swap]

/-- Storing settings before events that are no stores is storing them after these. -/
theorem foldl_swap (w : World) (s : Settings) {events : List Event}
    (hevents : ∀ e ∈ events, e.isStore = false) (x : Call) :
    events.foldl (react w) (x.swap s) = (events.foldl (react w) x).swap s := by
  induction events generalizing x with
  | nil => rfl
  | cons e events ih =>
    have he := hevents e List.mem_cons_self
    rw [List.foldl_cons, react_swap w x s he]
    exact ih (fun e' he' => hevents e' (List.mem_cons_of_mem e he')) (x.react w e)

/-- **Run.** A run with its stores taken out differs in nothing but the settings that are
current. -/
theorem foldl_react (w : World) (x : Call) (events : List Event) :
    events.foldl (react w) x =
      ((events.filter fun e => !e.isStore).foldl (react w) x).swap
        ((events.flatMap Event.stored).getLastD x.service.settings) := by
  induction events generalizing x with
  | nil => rfl
  | cons e events ih =>
    rw [List.foldl_cons, ih, List.flatMap_cons]
    cases e with
    | advance => rw [settings_react w x rfl]; rfl
    | ends i => rw [settings_react w x rfl]; rfl
    | store s =>
      have hkept : ∀ e ∈ events.filter fun e => !e.isStore, e.isStore = false := by
        simp
      rw [react, foldl_swap w s hkept, swap_swap, settings_swap, Event.stored,
        List.singleton_append, List.getLastD_cons]
      rfl

/-! ### What is checked -/

/-- The checks of several applications with the settings of the snapshot. -/
def checksFrom (w : World) (x : Call) (task now : Nat) (apps : List Application) : List Check :=
  checkAll w.probing x.snapshot w.cancelAt task now apps

/-- A check under way once all of its members have been dispatched. -/
def whole (w : World) (x : Call) (c : Checking) : Check :=
  c.members.foldl (Check.dispatch w.probing x.snapshot w.cancelAt c.task) c.check

/-- What a call has checked and, from where it stands, has still to check. -/
def outcome (w : World) (x : Call) : Except NotFound (List Check) :=
  match x.standing with
  | .asked q => (q.applications x.snapshot).map (x.checksFrom w x.service.nextTask x.now)
  | .between apps => .ok (x.finished ++ x.checksFrom w x.service.nextTask x.now apps)
  | .checking c rest =>
    .ok (x.finished ++ x.whole w c ::
      x.checksFrom w (c.task + (x.whole w c).tasks.length) (x.whole w c).endsAt rest)
  | .answered result => result.map fun _ => x.finished

/-- What is true of a call that began with a service: its snapshot is still that of its start, its
outcome is what its query asks of that, and the service is what its checks leave. -/
structure Sound (w : World) (v : Service) (q : Query) (x : Call) : Prop where
  snapshot : x.snapshot = v.settings
  outcome : x.outcome w = (v.ask w.probing w.clock v.settings w.cancelAt q).1
  reports : x.reports = x.finished.map (·.report w.clock)
  metrics : x.service.metrics = (v.record w.clock x.finished).metrics
  nextTask : x.service.nextTask = (v.countTasks x.dispatched).nextTask
  numbered : ∀ c rest, x.standing = .checking c rest →
    x.service.nextTask = c.task + c.check.tasks.length
  asked : ∀ q', x.standing = .asked q' → x.finished = []
  answered : ∀ result, x.standing = .answered result →
    (∃ e, result = .error e ∧ x.finished = []) ∨ result = .ok x.reports

/-- A call at its start. -/
theorem sound_start (w : World) (v : Service) (q : Query) : Sound w v q (start v q) where
  snapshot := rfl
  outcome := by
    simp only [outcome, start, Service.ask]
    cases q.applications v.settings <;> rfl
  reports := rfl
  metrics := congrArg Service.metrics (v.record_nil w.clock).symm
  nextTask := rfl
  numbered := by simp [start]
  asked _ _ := rfl
  answered := by simp [start]

/-- A turn keeps what is true of a call. -/
theorem Sound.advance (hx : Sound w v q x) : Sound w v q (x.advance w) := by
  obtain ⟨service, snapshot, standing, now, finished, reports⟩ := x
  obtain ⟨hsnapshot, houtcome, hreports, hmetrics, hnext, hnumbered, hasked, hanswered⟩ := hx
  simp only at hsnapshot hreports hmetrics hnumbered hasked hanswered
  cases standing with
  | asked q' =>
    obtain rfl := hasked q' rfl
    obtain rfl : reports = [] := hreports
    simp only [Call.outcome] at houtcome
    simp only [Call.advance]
    cases happs : q'.applications snapshot with
    | error e =>
      rw [happs] at houtcome
      exact ⟨hsnapshot, houtcome, rfl, hmetrics, hnext, by simp, by simp, by simp⟩
    | ok apps =>
      rw [happs] at houtcome
      exact ⟨hsnapshot, houtcome, rfl, hmetrics, hnext, by simp, by simp, by simp⟩
  | between apps =>
    cases apps with
    | nil =>
      refine ⟨hsnapshot, ?_, hreports, hmetrics, hnext, by simp [Call.advance],
        by simp [Call.advance], by simp [Call.advance]⟩
      rw [← houtcome]
      exact congrArg Except.ok (List.append_nil finished).symm
    | cons app rest =>
      -- A check that begins is whole by the same fold that begins it at once, here and below.
      refine ⟨hsnapshot, houtcome, hreports, hmetrics, ?_, ?_, by simp [Call.advance],
        by simp [Call.advance]⟩
      · exact hnext.trans (v.nextTask_countTasks_append finished
          { application := app.name, startedAt := now }).symm
      · rintro _ _ ⟨⟩
        rfl
  | checking c rest =>
    obtain ⟨check, task, members, ended⟩ := c
    have htask : service.nextTask = task + check.tasks.length := hnumbered _ _ rfl
    have hfinished : service.nextTask = (v.countTasks finished).nextTask + check.tasks.length :=
      hnext.trans (v.nextTask_countTasks_append finished check)
    cases members with
    | cons member members =>
      refine ⟨hsnapshot, houtcome, hreports, hmetrics, ?_, ?_, by simp [Call.advance],
        by simp [Call.advance]⟩
      · have hfirst : task = (v.countTasks finished).nextTask := by omega
        exact hfirst ▸ (v.nextTask_countTasks_append finished _).symm
      · rintro _ _ ⟨⟩
        rfl
    | nil =>
      simp only [Call.advance]
      split
      next => exact ⟨hsnapshot, houtcome, hreports, hmetrics, hnext, hnumbered, hasked, hanswered⟩
      next report hreport =>
        obtain rfl := Check.report_of_reportAfter? hreport
        refine ⟨hsnapshot, ?_, ?_, ?_, hnext, by simp, by simp, by simp⟩
        · rw [← houtcome]
          simp only [Call.outcome, Call.whole, Call.checksFrom, List.foldl_nil, htask,
            List.append_assoc, List.singleton_append]
        · rw [hreports, List.map_append, List.map_singleton]
        · exact Service.metrics_record_append w.clock hmetrics check
  | answered result =>
    exact ⟨hsnapshot, houtcome, hreports, hmetrics, hnext, hnumbered, hasked, hanswered⟩

/-- The end of a task keeps what is true of a call. -/
theorem Sound.finishTask (hx : Sound w v q x) (i : Nat) : Sound w v q (x.finishTask i) := by
  obtain ⟨service, snapshot, standing, now, finished, reports⟩ := x
  have hsound := hx
  obtain ⟨hsnapshot, houtcome, hreports, hmetrics, hnext, hnumbered, -, -⟩ := hx
  cases standing with
  | checking c rest =>
    simp only [Call.finishTask]
    split
    next =>
      refine ⟨hsnapshot, houtcome, hreports, hmetrics, hnext, ?_, by simp, by simp⟩
      rintro _ _ ⟨⟩
      exact hnumbered c rest rfl
    next => exact hsound
  | _ => exact hsound

/-- **Step.** An event keeps what is true of a call. -/
theorem Sound.react (hx : Sound w v q x) (e : Event) : Sound w v q (x.react w e) := by
  cases e with
  | advance => exact hx.advance
  | ends i => exact hx.finishTask i
  | store s =>
    exact ⟨hx.snapshot, hx.outcome, hx.reports, hx.metrics, hx.nextTask, hx.numbered, hx.asked,
      hx.answered⟩

/-- **Run.** It is true of a call at every point. -/
theorem sound_during (w : World) (v : Service) (q : Query) (events : List Event) :
    Sound w v q (during w v q events) :=
  events.foldlRecOn (Call.react w) (sound_start w v q) fun _ hx e _ => hx.react e

/-! ### The end of a call -/

/-- How many of the first `n` tasks have not ended. -/
def running (n : Nat) (ended : List Nat) : Nat :=
  ((Finset.range n).filter (· ∉ ended)).card

/-- How many turns and ends of tasks the checks of applications need at most. -/
def eventsFor (apps : List Application) : Nat :=
  (apps.map fun app => 2 * app.members.length + 2).sum

/-- How many turns and ends of tasks are left at most. -/
def eventsLeft (x : Call) : Nat :=
  match x.standing with
  | .asked q => eventsFor ((q.applications x.snapshot).toOption.getD []) + 2
  | .between apps => eventsFor apps + 1
  | .checking c rest =>
    2 * c.members.length + running c.check.tasks.length c.ended + eventsFor rest + 2
  | .answered _ => 0

/-- One more task is at most one more that has not ended. -/
theorem running_succ (n : Nat) (ended : List Nat) :
    running (n + 1) ended ≤ running n ended + 1 := by
  rw [running, running, Finset.range_add_one, Finset.filter_insert]
  split
  · exact Finset.card_insert_le _ _
  · exact Nat.le_succ _

/-- Fewer tasks are left once one of them has ended. -/
theorem running_lt {n i : Nat} {ended : List Nat} (hi : i < n) (hrunning : i ∉ ended) :
    running n (ended ++ [i]) < running n ended := by
  refine Finset.card_lt_card ((Finset.ssubset_iff_of_subset ?_).mpr ⟨i, ?_, ?_⟩)
  · refine Finset.monotone_filter_right _ fun k _ hk hended => hk ?_
    exact List.mem_append_left _ hended
  · simp [hi, hrunning]
  · simp

/-- One more member is at most one more task to wait for. -/
theorem running_dispatch (w : World) (s : Settings) (task : Nat) (c : Check) (member : String)
    (ended : List Nat) :
    running (c.dispatch w.probing s w.cancelAt task member).tasks.length ended ≤
      running c.tasks.length ended + 1 := by
  rw [Check.dispatch]
  cases s.memberUri? member with
  | none => exact Nat.le_succ _
  | some uri => simpa using running_succ c.tasks.length ended

/-- A call that has not been answered can go on towards its end. -/
theorem exists_eventsLeft_lt (w : World) (x : Call) :
    (∃ result, x.standing = .answered result) ∨
      ∃ e : Event, e.isStore = false ∧ (x.react w e).eventsLeft < x.eventsLeft := by
  obtain ⟨service, snapshot, standing, now, finished, reports⟩ := x
  cases standing with
  | asked q =>
    refine .inr ⟨.advance, rfl, ?_⟩
    simp only [react, advance]
    cases happs : q.applications snapshot with
    | error e => simp [eventsLeft]
    | ok apps => simp [eventsLeft, happs, Except.toOption]
  | between apps =>
    refine .inr ⟨.advance, rfl, ?_⟩
    cases apps with
    | nil => simp [react, advance, eventsLeft]
    | cons app rest =>
      simp only [react, advance, eventsLeft, eventsFor, List.map_cons, List.sum_cons,
        List.length_nil]
      have hnone : running 0 [] = 0 := rfl
      omega
  | checking c rest =>
    obtain ⟨check, task, members, ended⟩ := c
    cases members with
    | cons member members =>
      refine .inr ⟨.advance, rfl, ?_⟩
      have hrunning := running_dispatch w snapshot task check member ended
      simp only [react, advance, eventsLeft, List.length_cons]
      omega
    | nil =>
      by_cases hall : ∀ i < check.tasks.length, i ∈ ended
      · refine .inr ⟨.advance, rfl, ?_⟩
        simp only [react, advance, Check.reportAfter?_eq, if_pos hall, eventsLeft]
        omega
      · simp only [not_forall] at hall
        obtain ⟨i, hi, hrunning⟩ := hall
        refine .inr ⟨.ends i, rfl, ?_⟩
        have hlt := running_lt hi hrunning
        simp only [react, finishTask, if_pos hi, eventsLeft]
        omega
  | answered result => exact .inl ⟨result, rfl⟩

/-- A call can always be brought to its end. -/
theorem exists_answered (w : World) (x : Call) :
    ∃ more : List Event, (∀ e ∈ more, e.isStore = false) ∧
      ∃ result, (more.foldl (react w) x).standing = .answered result := by
  induction hleft : x.eventsLeft using Nat.strongRecOn generalizing x with
  | ind n ih =>
    rcases exists_eventsLeft_lt w x with hanswered | ⟨e, he, hlt⟩
    · exact ⟨[], by simp, hanswered⟩
    · obtain ⟨more, hmore, hanswered⟩ := ih _ (hleft ▸ hlt) (x.react w e) rfl
      exact ⟨e :: more, List.forall_mem_cons.mpr ⟨he, hmore⟩, hanswered⟩

/-! ### The answer -/

/-- A call that has been answered was answered as its query is from its snapshot: with the reports
of the same checks, with probes of the same targets, and it leaves what these checks leave. -/
theorem Sound.of_answered (hx : Sound w v q x) {result : Except NotFound (List ApplicationReport)}
    (hresult : x.standing = .answered result) :
    let asked := v.ask w.probing w.clock v.settings w.cancelAt q
    result = asked.1.map (·.map (·.report w.clock)) ∧
      x.probed = (asked.1.toOption.getD []).flatMap (·.targets) ∧
      x.service = asked.2.swap x.service.settings := by
  intro asked
  have houtcome : x.outcome w = asked.1 := hx.outcome
  have hasked : asked.1 = result.map fun _ => x.finished := by
    rw [Call.outcome, hresult] at houtcome
    exact houtcome.symm
  have hchecks : asked.1.toOption.getD [] = x.finished ∧
      result = asked.1.map (·.map (·.report w.clock)) := by
    rw [hasked]
    rcases hx.answered result hresult with ⟨e, rfl, hnone⟩ | rfl
    · exact ⟨hnone.symm, rfl⟩
    · exact ⟨rfl, congrArg Except.ok hx.reports⟩
  obtain ⟨hfinished, hreports⟩ := hchecks
  have hdispatched : x.dispatched = x.finished := by
    rw [dispatched, hresult]
  have hservice : asked.2 = (v.record w.clock x.finished).countTasks x.finished :=
    hfinished ▸ v.ask_snd w.probing w.clock v.settings w.cancelAt q
  refine ⟨hreports, ?_, ?_⟩
  · rw [probed, hdispatched, hfinished]
  · have hnext : x.service.nextTask = (v.countTasks x.finished).nextTask :=
      hdispatched ▸ hx.nextTask
    rw [hservice]
    exact Service.eq_swap_settings hx.metrics hnext

/-- **A call is isolated from stores.** Take any turns of a call, ends of its tasks, and stores of
other settings before, between and after them. At every point the call stands where it would stand
without the stores, with the same checks, reports, metrics and tasks; only the settings that are
current are those that were stored last. When it is answered, its result is that of its query for
the settings at its start, it has probed the targets of these checks, and the service is the one
that these checks leave. A call that begins then is answered for the settings that were stored
last. And whatever was stored, a call can be brought to its end. -/
theorem isolated_from_stores (w : World) (v : Service) (q : Query) (events : List Event) :
    let x := during w v q events
    let last := (events.flatMap Event.stored).getLastD v.settings
    let asked := v.ask w.probing w.clock v.settings w.cancelAt q
    x = (during w v q (events.filter fun e => !e.isStore)).swap last ∧
    x.service.settings = last ∧
    (∀ result, x.standing = .answered result →
      result = asked.1.map (·.map (·.report w.clock)) ∧
      x.probed = (asked.1.toOption.getD []).flatMap (·.targets) ∧
      x.service = asked.2.swap last) ∧
    (∀ (w' : World) (q' : Query) (events' : List Event) (result),
      (during w' x.service q' events').standing = .answered result →
      result = (x.service.ask w'.probing w'.clock last w'.cancelAt q').1.map
        (·.map (·.report w'.clock))) ∧
    ∃ more : List Event, (∀ e ∈ more, e.isStore = false) ∧
      ∃ result, (during w v q (events ++ more)).standing = .answered result := by
  intro x last asked
  have hx : Sound w v q x := sound_during w v q events
  have hrun : x = (during w v q (events.filter fun e => !e.isStore)).swap last :=
    foldl_react w (start v q) events
  have hlast : x.service.settings = last := by rw [hrun, settings_swap]
  refine ⟨hrun, hlast, fun result hresult => hlast ▸ hx.of_answered hresult, ?_, ?_⟩
  · intro w' q' events' result hresult
    rw [← hlast]
    exact ((sound_during w' x.service q' events').of_answered hresult).1
  · obtain ⟨more, hmore, hanswered⟩ := exists_answered w x
    refine ⟨more, hmore, ?_⟩
    rwa [during, List.foldl_append]

/-- A list of two applications with a common member, one of whose probes panics: before the first
turn the settings lose a member, while its probes are in flight they lose all applications, and
between the two checks they get another one. -/
theorem isolated_from_stores_of_three_stores :
    let s : Settings :=
      { healthChecks := [⟨"a", "http://a"⟩, ⟨"b", "http://b"⟩]
        applications := [⟨"App", ["a", "ghost", "b"]⟩, ⟨"Other", ["b"]⟩] }
    let s' : Settings := { s with healthChecks := [⟨"a", "http://elsewhere"⟩] }
    let s'' : Settings := { applications := [⟨"Later", ["a"]⟩] }
    let w : World :=
      { probing := fun task name uri start _ =>
          { endsAt := start + task
            outcome := if task = 2 then .panic none
              else .report ⟨name, uri, ⟨"Up"⟩, task, none⟩ }
        clock := fun _ => default }
    let v : Service := .ofSettings s false
    let events : List Event :=
      [.store s', .advance, .advance, .advance, .store {}, .advance, .ends 0, .advance, .ends 1,
        .advance, .store s'', .advance, .advance, .ends 0, .advance, .advance]
    let x := during w v .list events
    let result : Except NotFound (List ApplicationReport) :=
      .ok [⟨"App", default, [⟨"a", "http://a", ⟨"Up"⟩, 1, none⟩,
          .unreachable "b" "http://b" 2 "task 2 panicked"]⟩,
        ⟨"Other", default, [⟨"b", "http://b", ⟨"Up"⟩, 3, none⟩]⟩]
    x.standing = .answered result ∧
    result = (v.ask w.probing w.clock s none .list).1.map (·.map (·.report w.clock)) ∧
    x.probed = [("a", "http://a"), ("b", "http://b"), ("b", "http://b")] ∧
    x.service.settings = s'' := by
  intro s s' s'' w v events x result
  have hanswered : x.standing = .answered result := by decide +kernel
  obtain ⟨-, hlast, hanswer, -, -⟩ := isolated_from_stores w v .list events
  obtain ⟨hresult, hprobed, -⟩ := hanswer result hanswered
  have hcurrent : x.service.settings = s'' := by
    rw [hlast]
    rfl
  exact ⟨hanswered, hresult, hprobed.trans (by decide +kernel), hcurrent⟩

end Call

end ServiceHealth
