import Mathlib.Algebra.Order.BigOperators.Group.List
import Mathlib.Algebra.Order.Group.Nat
import ServiceHealth.Proofs.Status.Counts
import ServiceHealth.Report.Encoding

/-!
# The summary of a report

The status, the counts and the mean of a report are read off its members in three ways: by looking
at the members one by one until one of them fails, by counting, and by adding up their durations.
The first two come down to how many members count under each status (`ApplicationReport.status_eq`,
`ApplicationReport.healthyCount_eq`, `ApplicationReport.totalCount_eq`), and from these numbers
alone they agree with each other. The third rounds nothing before the sum is complete, so it does
not depend on the order in which it is added up either.

## Main results

* `ApplicationReport.averageDurationMs_perm` — the mean in any order of the members.
* `ApplicationReport.summary_agrees` — the summary in any order, and how its parts agree.
-/

namespace ServiceHealth.ApplicationReport

/-- How many members of a report count under a status. -/
def countUnder (r : ApplicationReport) : HealthStatus → Nat :=
  ServiceHealth.countUnder (r.members.map (·.status))

variable {r r' : ApplicationReport}

/-! ### Counts -/

/-- The status of a report follows from its counts. -/
theorem status_eq (r : ApplicationReport) : r.status = .ofCounts r.countUnder :=
  aggregate_eq_ofCounts _

/-- The healthy members are those that count as healthy. -/
theorem healthyCount_eq (r : ApplicationReport) : r.healthyCount = r.countUnder .healthy := by
  rw [healthyCount, countUnder, ServiceHealth.countUnder, List.countP_map]
  refine List.countP_congr fun m _ => ?_
  rw [MemberStatus.names_eq_decide (by decide)]
  rfl

/-- Each member counts under one status. -/
theorem totalCount_eq (r : ApplicationReport) :
    r.totalCount = (HealthStatus.all.map r.countUnder).sum := by
  rw [countUnder, sum_countUnder, List.length_map, totalCount]

/-- In any order the counts are the same. -/
theorem countUnder_perm (h : r'.members.Perm r.members) : r'.countUnder = r.countUnder :=
  ServiceHealth.countUnder_perm (h.map _)

/-! ### Durations -/

/-- The durations of all members together are their sum. -/
theorem totalDurationMs_eq_sum (r : ApplicationReport) :
    r.totalDurationMs = (r.members.map (·.durationMs)).sum := by
  rw [totalDurationMs, List.sum, List.foldr_map]

/-- In any order the durations come to the same. -/
theorem totalDurationMs_perm (h : r'.members.Perm r.members) :
    r'.totalDurationMs = r.totalDurationMs := by
  rw [totalDurationMs_eq_sum, totalDurationMs_eq_sum, (h.map _).sum_eq]

/-- The durations of the first members come to no more than those of all. -/
theorem totalDurationMs_take_le (r : ApplicationReport) (k : Nat) :
    totalDurationMs { r with members := r.members.take k } ≤ r.totalDurationMs := by
  rw [totalDurationMs_eq_sum, totalDurationMs_eq_sum]
  exact ((List.take_sublist k r.members).map _).sum_le_sum fun _ _ => Nat.zero_le _

/-- In any order the mean is the same, to the last bit. -/
theorem averageDurationMs_perm (h : r'.members.Perm r.members) :
    r'.averageDurationMs = r.averageDurationMs := by
  have hempty : r'.members = [] ↔ r.members = [] := by
    rw [← List.length_eq_zero_iff, h.length_eq, List.length_eq_zero_iff]
  have htotal : r'.totalCount = r.totalCount := h.length_eq
  simp only [averageDurationMs, hempty, totalDurationMs_perm h, htotal]

/-! ### The summary -/

/-- The members of a report, counted status by status. -/
theorem totalCount_eq_add (r : ApplicationReport) :
    r.totalCount = r.countUnder .healthy + r.countUnder .degraded + r.countUnder .unhealthy +
      r.countUnder .unreachable + r.countUnder .unknown := by
  rw [totalCount_eq]
  simp only [HealthStatus.all, List.map_cons, List.map_nil, List.sum_cons, List.sum_nil]
  omega

/-- An application whose members are all healthy is healthy, if it has any. -/
theorem status_of_all_healthy (hall : r.healthyCount = r.totalCount) (hpos : 0 < r.totalCount) :
    r.status = .healthy := by
  rw [healthyCount_eq] at hall
  have htotal := r.totalCount_eq_add
  rw [status_eq, HealthStatus.ofCounts, if_neg (by omega), if_neg (by omega), if_pos (by omega)]

/-- A healthy application has a healthy member. -/
theorem healthyCount_pos (h : r.status = .healthy) : 0 < r.healthyCount := by
  rw [status_eq, HealthStatus.ofCounts] at h
  rw [healthyCount_eq]
  split_ifs at h with _ _ hhealthy
  exact hhealthy

/-- Without a healthy member the status is unknown unless it is unhealthy or degraded. -/
theorem status_of_none_healthy (hnone : r.healthyCount = 0) (hunhealthy : r.status ≠ .unhealthy)
    (hdegraded : r.status ≠ .degraded) : r.status = .unknown := by
  rw [healthyCount_eq] at hnone
  have hstatus := r.status_eq
  rw [HealthStatus.ofCounts] at hstatus
  split_ifs at hstatus with _ _ hhealthy
  · exact absurd hstatus hunhealthy
  · exact absurd hstatus hdegraded
  · omega
  · exact hstatus

/-- Without members the status is unknown and the mean is zero. -/
theorem summary_of_no_members (h : r.totalCount = 0) :
    r.status = .unknown ∧ r.averageDurationMs = .zero := by
  have hmembers : r.members = [] := List.eq_nil_of_length_eq_zero h
  rw [status, averageDurationMs, hmembers]
  exact ⟨rfl, rfl⟩

/-- **The summary agrees with itself.** A report on members whose durations together fit in 64 bits
lists them as they are given. In any other order of the members, under any name and at any moment,
the status, both counts and the mean are the same, and the durations can be added up one after
another without leaving 64 bits. No more members are healthy than there are; if all are, and there
is one, the application is healthy; a healthy application has a healthy member; without one its
status is unknown unless it is unhealthy or degraded; and without members it is unknown and the mean
is zero. -/
theorem summary_agrees {name : String} {checkedAt : Timestamp} {members : List MemberReport}
    (hsum : totalDurationMs ⟨name, checkedAt, members⟩ < UInt64.size) :
    let r : ApplicationReport := ⟨name, checkedAt, members⟩
    (r.members = members ∧
      r.toJson.field? "members" = some (.array (members.map MemberReport.toJson))) ∧
    (∀ (name' : String) (checkedAt' : Timestamp) (members' : List MemberReport),
      members'.Perm members →
      let r' : ApplicationReport := ⟨name', checkedAt', members'⟩
      r'.status = r.status ∧ r'.healthyCount = r.healthyCount ∧ r'.totalCount = r.totalCount ∧
      r'.averageDurationMs = r.averageDurationMs ∧
      ∀ k, totalDurationMs { r' with members := members'.take k } < UInt64.size) ∧
    (r.healthyCount ≤ r.totalCount ∧ r.totalCount = members.length) ∧
    (r.healthyCount = r.totalCount → 0 < r.totalCount → r.status = .healthy) ∧
    (r.status = .healthy → 1 ≤ r.healthyCount) ∧
    (r.healthyCount = 0 → r.status ≠ .unhealthy → r.status ≠ .degraded → r.status = .unknown) ∧
    (r.totalCount = 0 → r.status = .unknown ∧ r.averageDurationMs = .zero) := by
  intro r
  refine ⟨⟨rfl, rfl⟩, ?_, ⟨List.countP_le_length, rfl⟩, status_of_all_healthy, healthyCount_pos,
    status_of_none_healthy, summary_of_no_members⟩
  intro name' checkedAt' members' hperm r'
  have hcounts : r'.countUnder = r.countUnder := countUnder_perm hperm
  have htotal : r'.totalDurationMs = r.totalDurationMs := totalDurationMs_perm hperm
  refine ⟨?_, ?_, hperm.length_eq, averageDurationMs_perm hperm, fun k => ?_⟩
  · rw [status_eq, status_eq, hcounts]
  · rw [healthyCount_eq, healthyCount_eq, hcounts]
  · refine (r'.totalDurationMs_take_le k).trans_lt ?_
    rwa [htotal]

/-- Three members backwards, one of them with a letter that only looks like the one in `Healthy`;
and two that are healthy in any case. -/
theorem summary_agrees_of_three :
    let member (text : String) (ms : Nat) : MemberReport := ⟨"m", "http://m", ⟨text⟩, ms, none⟩
    let members := [member "HEALTHY" 1, member "Нealthy" 1, member "degraded" 2]
    let healthy := [member "hEALTHY" 5, member "Healthy" (UInt64.size - 6)]
    let r : ApplicationReport := ⟨"App", default, members⟩
    let r' : ApplicationReport := ⟨"Other", ⟨1700000000, 0⟩, members.reverse⟩
    let whole : ApplicationReport := ⟨"App", default, healthy⟩
    r.totalDurationMs < UInt64.size ∧ r.status = .degraded ∧ r.healthyCount = 1 ∧
      r'.status = r.status ∧ r'.healthyCount = r.healthyCount ∧
      r'.averageDurationMs = r.averageDurationMs ∧
      whole.totalDurationMs < UInt64.size ∧ whole.status = .healthy := by
  intro member members healthy r r' whole
  have hsum : r.totalDurationMs < UInt64.size := by decide
  have hwhole : whole.totalDurationMs < UInt64.size := by decide
  obtain ⟨-, horder, -⟩ := summary_agrees hsum
  obtain ⟨hstatus, hhealthy, -, hmean, -⟩ :=
    horder "Other" ⟨1700000000, 0⟩ members.reverse members.reverse_perm
  obtain ⟨-, -, -, hall, -⟩ := summary_agrees hwhole
  exact ⟨hsum, by decide, by decide, hstatus, hhealthy, hmean, hwhole,
    hall (by decide) (by decide)⟩

end ServiceHealth.ApplicationReport
