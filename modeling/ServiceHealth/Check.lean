import ServiceHealth.Join
import ServiceHealth.Prober
import ServiceHealth.Settings
import ServiceHealth.Text.Quoted

/-!
# Checking applications

A check of an application dispatches one probe for each of its resolved members, all at the
same time, and lasts until the last of them has ended. Its report lists the members in
configured order, whatever the order in which they end. Several applications are checked one
after another.

Whoever asked may go away while checks are under way. Then the probes in flight are cancelled,
the check they belong to gives no report, and no further application is checked.

## Main definitions

* `ProbeTask`, `TaskPanic`, `ProbeTask.result` — the task of a probe, and what awaiting it
  gives.
* `Check`, `Check.begin` — the targets and tasks of a check, filled side by side.
* `Check.report` — its report, from the results of the tasks put beside the targets.
* `checkAll` — the checks of several applications.
* `Abandoned`, `checkUntil` — the checks of an asker who goes away.
-/

namespace ServiceHealth

/-- A task that probes: its number and its run. -/
structure ProbeTask where
  number : Nat
  run : Run
  deriving DecidableEq, Repr

/-- That a task panicked: its number and the message, absent when it is no text. -/
structure TaskPanic where
  task : Nat
  message : Option String
  deriving DecidableEq, Repr

/-- What is told of a task that panicked. -/
def TaskPanic.text (p : TaskPanic) : String :=
  "task " ++ toString p.task ++ " panicked" ++
    (p.message.map (" with message " ++ Text.quoted ·)).getD ""

/-- What awaiting a task gives. -/
def ProbeTask.result (t : ProbeTask) : Except TaskPanic MemberReport :=
  match t.run.outcome with
  | .report r => .ok r
  | .panic message => .error ⟨t.number, message⟩

/-- The entry of a member in a report: what its probe returned or, if the probe panicked, that
the member cannot be reached, after the time until all probes of the check had ended. -/
def memberEntry (elapsed : Nat) (result : Except TaskPanic MemberReport)
    (target : String × String) : MemberReport :=
  match result with
  | .ok r => r
  | .error p => .unreachable target.1 target.2 elapsed p.text

/-- A probe that was dispatched: its target and its run. -/
structure Dispatch where
  name : String
  uri : String
  run : Run
  deriving DecidableEq, Repr

/-- A check of an application: its start, the targets of its probes, by name and URI, and the
tasks that probe them. -/
@[ext]
structure Check where
  application : String
  startedAt : Nat
  targets : List (String × String) := []
  tasks : List ProbeTask := []
  deriving DecidableEq, Repr

namespace Check

/-- The check goes on to a member: it is skipped unless it is registered, and else its target
and the task that probes it are added. Tasks are numbered from `task` on. That is a simplification:
a program that serves several askers numbers all of its tasks in one sequence, those of connections
and of other checks among them, so that the numbers of a check may have gaps. A number only tells a
task from others and stands in the text of its panic. -/
def dispatch (probing : Probing) (s : Settings) (cancelAt : Option Nat) (task : Nat) (c : Check)
    (member : String) : Check :=
  match s.memberUri? member with
  | none => c
  | some uri =>
    let number := task + c.tasks.length
    { c with
      targets := c.targets ++ [(member, uri)]
      tasks := c.tasks ++ [⟨number, probing number member uri c.startedAt cancelAt⟩] }

/-- The check of an application, begun at `now`. -/
def begin (probing : Probing) (s : Settings) (cancelAt : Option Nat) (task now : Nat)
    (app : Application) : Check :=
  app.members.foldl (dispatch probing s cancelAt task) { application := app.name, startedAt := now }

/-- The probes of a check in configured order. -/
def probes (c : Check) : List Dispatch :=
  List.zipWith (fun target t => ⟨target.1, target.2, t.run⟩) c.targets c.tasks

/-- The moment at which the last probe has ended. -/
def endsAt (c : Check) : Nat := c.tasks.foldl (fun t p => max t p.run.endsAt) c.startedAt

/-- What awaiting each task gives. -/
def results (c : Check) : List (Except TaskPanic MemberReport) := c.tasks.map ProbeTask.result

/-- The places of the tasks in the order in which they end. -/
def endOrder (c : Check) : List Nat :=
  let endOf (i : Nat) : Nat := (c.tasks[i]?.map (·.run.endsAt)).getD c.startedAt
  (List.range c.tasks.length).mergeSort fun i k => endOf i ≤ endOf k

/-- The report of a check from the results of its tasks, given what the clock shows at each
time. -/
def reportOf (clock : Nat → Timestamp) (c : Check)
    (results : List (Except TaskPanic MemberReport)) : ApplicationReport :=
  ⟨c.application, clock c.startedAt,
    List.zipWith (memberEntry (c.endsAt - c.startedAt)) results c.targets⟩

/-- The report of a check whose tasks end in an order, once all of them have. -/
def reportAfter? (clock : Nat → Timestamp) (c : Check) (order : List Nat) :
    Option ApplicationReport :=
  (Join.run c.results order).results?.map (c.reportOf clock)

/-- The report of a check. -/
def report (clock : Nat → Timestamp) (c : Check) : ApplicationReport :=
  (c.reportAfter? clock c.endOrder).getD ⟨c.application, clock c.startedAt, []⟩

end Check

/-- The checks of several applications from `now` on. -/
def checkAll (probing : Probing) (s : Settings) (cancelAt : Option Nat) :
    (task now : Nat) → List Application → List Check
  | _, _, [] => []
  | task, now, app :: apps =>
    let c := Check.begin probing s cancelAt task now app
    c :: checkAll probing s cancelAt (task + c.tasks.length) c.endsAt apps

/-- The moment at which checks that began at `now` have ended. -/
def endOf (now : Nat) (cs : List Check) : Nat := (cs.getLast?.map Check.endsAt).getD now

/-- The checks that ended before their asker went away, and the one that was in flight. -/
structure Abandoned where
  finished : List Check
  interrupted : Option Check
  deriving DecidableEq, Repr

/-- The checks of several applications from `now` on for an asker who goes away at `dropAt`. A
check that would last longer is in flight then, and its probes are cancelled. -/
def checkUntil (probing : Probing) (s : Settings) (dropAt : Nat) :
    (task now : Nat) → List Application → Abandoned
  | _, _, [] => ⟨[], none⟩
  | task, now, app :: apps =>
    let c := Check.begin probing s none task now app
    if c.endsAt ≤ dropAt then
      let rest := checkUntil probing s dropAt (task + c.tasks.length) c.endsAt apps
      { rest with finished := c :: rest.finished }
    else ⟨[], some (Check.begin probing s (some dropAt) task now app)⟩

end ServiceHealth
