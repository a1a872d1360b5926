import ServiceHealth.Metrics.Series
import ServiceHealth.Report

/-!
# Metrics

What the service counts of itself: the probes of each member by the canonical status that
was reported, their durations in a histogram, and for each application three gauges of its
last check. Free text of members never becomes a label. Every change is one of three single
updates, and a report is recorded by all of its updates in turn.

## Main definitions

* `Histogram`, `Histogram.observe` — durations by upper bounds.
* `Gauge` — the gauges of an application.
* `Metrics`, `Metrics.Update`, `Metrics.apply` — the state and its single changes.
* `ApplicationReport.updates`, `Metrics.record` — what a report changes.
-/

namespace ServiceHealth

open Number Metrics

/-- How many durations were observed up to each bound, their sum in seconds, and their
number. -/
structure Histogram where
  below : List Nat
  sum : Binary64
  count : Nat
  deriving DecidableEq, Repr, Inhabited

namespace Histogram

/-- The bounds of the histogram, in milliseconds. -/
def bounds : List Nat := [5, 10, 25, 50, 100, 250, 500, 1000, 2500, 5000, 10000]

/-- No duration was observed. -/
def empty : Histogram := ⟨bounds.map fun _ => 0, .zero, 0⟩

/-- A number of milliseconds in seconds, rounded once. -/
def seconds (ms : Nat) : Binary64 := Binary64.ofNat ms / Binary64.ofNat 1000

/-- One more duration. -/
def observe (h : Histogram) (ms : Nat) : Histogram where
  below := List.zipWith (fun bound n => if ms ≤ bound then n + 1 else n) bounds h.below
  sum := h.sum + seconds ms
  count := h.count + 1

end Histogram

/-- The gauges of an application. -/
inductive Gauge
  | status | healthyMembers | totalMembers
  deriving DecidableEq, Repr, Inhabited

/-- The number that stands for the status of an application. -/
def HealthStatus.code : HealthStatus → Nat
  | healthy => 0
  | degraded => 1
  | unhealthy => 2
  | unreachable => 2
  | unknown => 3

/-- All that is counted and measured. -/
structure Metrics where
  probes : Series (String × HealthStatus) Nat := {}
  durations : Series String Histogram := {}
  gauges : Series (Gauge × String) Nat := {}
  deriving DecidableEq, Repr, Inhabited

namespace Metrics

/-- A single change. -/
inductive Update
  | probed (member : String) (status : HealthStatus)
  | lasted (member : String) (ms : Nat)
  | measured (gauge : Gauge) (application : String) (value : Nat)
  deriving DecidableEq, Repr

/-- The metrics after a single change. -/
def apply (m : Metrics) : Update → Metrics
  | .probed member status =>
    { m with probes := m.probes.update (member, status) fun n => n.getD 0 + 1 }
  | .lasted member ms =>
    { m with durations := m.durations.update member fun h => (h.getD .empty).observe ms }
  | .measured gauge application value =>
    { m with gauges := m.gauges.update (gauge, application) fun _ => value }

/-- The metrics after several changes, one after another. -/
def applyAll (m : Metrics) (us : List Update) : Metrics := us.foldl apply m

@[simp] theorem applyAll_append (m : Metrics) (us vs : List Update) :
    m.applyAll (us ++ vs) = (m.applyAll us).applyAll vs :=
  List.foldl_append

end Metrics

/-- What the report of a member changes: it is counted under its canonical status. -/
def MemberReport.updates (m : MemberReport) : List Update :=
  [.probed m.name m.status.canonical, .lasted m.name m.durationMs]

/-- What the report of an application changes besides its members. -/
def ApplicationReport.gaugeUpdates (r : ApplicationReport) : List Update :=
  [.measured .status r.name r.status.code,
   .measured .healthyMembers r.name r.healthyCount,
   .measured .totalMembers r.name r.totalCount]

/-- What the report of an application changes: its members in turn, then its gauges. -/
def ApplicationReport.updates (r : ApplicationReport) : List Update :=
  r.members.flatMap MemberReport.updates ++ r.gaugeUpdates

/-- The metrics after a report. -/
def Metrics.record (m : Metrics) (r : ApplicationReport) : Metrics := m.applyAll r.updates

end ServiceHealth
