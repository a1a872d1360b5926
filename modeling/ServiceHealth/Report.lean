import ServiceHealth.Status
import ServiceHealth.Timestamp
import ServiceHealth.Number.Binary64

/-!
# Reports

A member report is the outcome of one probe. An application report holds those of its
members, in the order of the configuration, and the moment the check began; its status, its
counts and its mean duration are read off the members.

## Main definitions

* `MemberReport`, `MemberReport.unreachable` — what a probe found out, or that it failed.
* `ApplicationReport` — a check of an application, with `status`, `healthyCount`,
  `totalCount` and `averageDurationMs`.
-/

namespace ServiceHealth

open Number

/-- The outcome of one probe of a member. -/
structure MemberReport where
  name : String
  uri : String
  status : MemberStatus
  durationMs : Nat
  payload : Option String
  deriving DecidableEq, Repr, Inhabited

/-- The report on a member that gave no answer, with the reason as its payload. -/
def MemberReport.unreachable (name uri : String) (durationMs : Nat) (reason : String) :
    MemberReport :=
  ⟨name, uri, .ofHealth .unreachable, durationMs, some reason⟩

/-- One check of an application: its members' reports in configured order. -/
structure ApplicationReport where
  name : String
  checkedAt : Timestamp
  members : List MemberReport
  deriving DecidableEq, Repr, Inhabited

namespace ApplicationReport

/-- The status of the application, from those of its members. -/
def status (r : ApplicationReport) : HealthStatus := aggregate (r.members.map (·.status))

/-- How many members report that they are healthy. -/
def healthyCount (r : ApplicationReport) : Nat :=
  r.members.countP fun m => m.status.names .healthy

/-- How many members were probed. -/
def totalCount (r : ApplicationReport) : Nat := r.members.length

/-- The durations of all members together. -/
def totalDurationMs (r : ApplicationReport) : Nat :=
  r.members.foldr (fun m total => m.durationMs + total) 0

/-- The mean duration, rounded to hundredths with a tie going to the even one; zero without
members. Each step of the computation is rounded to a double. -/
def averageDurationMs (r : ApplicationReport) : Binary64 :=
  if r.members = [] then .zero
  else
    let mean := Binary64.ofNat r.totalDurationMs / Binary64.ofNat r.totalCount
    Binary64.ofNat (mean * Binary64.ofNat 100).roundToInteger / Binary64.ofNat 100

end ApplicationReport

end ServiceHealth
