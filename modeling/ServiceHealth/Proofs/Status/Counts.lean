import Mathlib.Algebra.GroupWithZero.Nat
import ServiceHealth.Proofs.Status

/-!
# The status of a group by counts

A text counts under one status, so a group amounts to five numbers: how many of its members count
under each status. They add up to the number of members, and the status of the group follows from
which of them are zero (`aggregate_eq_ofCounts`). Whatever is read off a group by its counts is
therefore the same in every order of the members, and the same for members that report nothing but
the names of the statuses they count under.

## Main definitions

* `countUnder` — how many members of a group count under a status.
* `HealthStatus.ofCounts` — the status of a group of which so many members count under each status.

## Main results

* `aggregate_eq_ofCounts` — the status of a group from its counts.
* `sum_countUnder` — each member counts under one status.
-/

namespace ServiceHealth

/-- How many members of a group count under a status. -/
def countUnder (members : List MemberStatus) (s : HealthStatus) : Nat :=
  members.countP (·.canonical = s)

/-- The status of a group of which so many members count under each status. -/
def HealthStatus.ofCounts (n : HealthStatus → Nat) : HealthStatus :=
  if 0 < n .unhealthy + n .unreachable then .unhealthy
  else if 0 < n .degraded then .degraded
  else if 0 < n .healthy then .healthy
  else .unknown

theorem HealthStatus.ofCounts_ne_unreachable (n : HealthStatus → Nat) :
    ofCounts n ≠ .unreachable := by
  rw [ofCounts]
  split_ifs <;> decide

/-- A property of some status is one of these five. -/
theorem HealthStatus.exists_iff {p : HealthStatus → Prop} :
    (∃ s, p s) ↔ p .healthy ∨ p .degraded ∨ p .unhealthy ∨ p .unreachable ∨ p .unknown := by
  constructor
  · rintro ⟨s, hs⟩
    cases s <;> simp [hs]
  · rintro (h | h | h | h | h) <;> exact ⟨_, h⟩

variable {members : List MemberStatus}

/-- The worst of a group is at least as bad as a rank if some status of this rank has a count. -/
theorem le_worst_iff_countUnder {k : Nat} (hk : 0 < k) :
    k ≤ worst members ↔ ∃ s : HealthStatus, 0 < countUnder members s ∧ k ≤ s.rank := by
  rw [le_worst_iff hk]
  simp only [countUnder, List.countP_pos_iff, decide_eq_true_eq]
  constructor
  · rintro ⟨m, hm, hrank⟩
    exact ⟨m.canonical, ⟨m, hm, rfl⟩, hrank⟩
  · rintro ⟨s, ⟨m, hm, rfl⟩, hrank⟩
    exact ⟨m, hm, hrank⟩

/-- The status of a group follows from its counts. -/
theorem aggregate_eq_ofCounts (members : List MemberStatus) :
    aggregate members = .ofCounts (countUnder members) := by
  have hthree : 3 ≤ worst members ↔ _ := le_worst_iff_countUnder (by decide)
  have htwo : 2 ≤ worst members ↔ _ := le_worst_iff_countUnder (by decide)
  have hone : 1 ≤ worst members ↔ _ := le_worst_iff_countUnder (by decide)
  have hbound : worst members ≤ 3 := worst_le_iff.mpr fun m _ => m.canonical.rank_le
  simp only [HealthStatus.exists_iff, HealthStatus.rank] at hthree htwo hone
  rw [aggregate_eq_iff (HealthStatus.ofCounts_ne_unreachable _), HealthStatus.ofCounts]
  split_ifs <;> simp only [HealthStatus.rank] <;> omega

/-- Each member counts under one status. -/
theorem sum_countUnder (members : List MemberStatus) :
    (HealthStatus.all.map (countUnder members)).sum = members.length := by
  simp only [HealthStatus.all, List.map_cons, List.map_nil, countUnder]
  induction members with
  | nil => rfl
  | cons m ms ih =>
    simp only [List.countP_cons, List.length_cons]
    rw [← ih]
    cases m.canonical <;> simp <;> omega

/-- The order of the members does not matter to the counts. -/
theorem countUnder_perm {members' : List MemberStatus} (h : members'.Perm members) :
    countUnder members' = countUnder members :=
  funext fun _ => h.countP_eq _

/-- Members that report the names of the statuses they count under have the same counts. -/
theorem countUnder_map_canonical (members : List MemberStatus) :
    countUnder (members.map fun m => .ofHealth m.canonical) = countUnder members := by
  funext s
  rw [countUnder, countUnder, List.countP_map]
  simp only [Function.comp_def, MemberStatus.canonical_ofHealth]

end ServiceHealth
