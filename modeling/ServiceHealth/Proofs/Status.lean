import Mathlib.Order.Lattice
import Mathlib.Order.MinMax
import ServiceHealth.Proofs.Text.AsciiCase
import ServiceHealth.Status

/-!
# The status of a group

Every reported text has a rank: that of the status it spells in any case, and the lowest if it
spells none. Looking at the members of a group one by one, with two flags and an early return, comes
to the rank of the worst of them (`rank_aggregateFrom`). All that a group's status depends on is
therefore the greatest rank in it: where the members stand, how often they occur and how they are
put together from smaller groups makes no difference.

## Main definitions

* `MemberStatus.Spells` — a text is the name of a status, letter by letter and in any case.
* `HealthStatus.rank`, `MemberStatus.Ranked` — how bad a status is, and a reported text.
* `worst` — the greatest rank in a group.

## Main results

* `MemberStatus.canonical_eq_iff` — the canonical status of a text.
* `rank_aggregate` — the status of a group has the rank of its worst member.
* `aggregate_decided_by_worst` — the status of a group, for all members, and what a worse member
  does to it.
* `aggregate_of_groups` — groups of groups.
-/

namespace ServiceHealth

open Text

/-! ### Reported texts -/

namespace MemberStatus

/-- A text spells a status: it is the name of the status, letter by letter and in any case. -/
def Spells (m : MemberStatus) (s : HealthStatus) : Prop :=
  List.Forall₂ SameLetter m.text.toList s.name.toList

variable {m : MemberStatus} {s : HealthStatus}

theorem names_iff_spells : m.names s = true ↔ m.Spells s := sameFolded_iff_forall₂

/-- Trying the statuses in any order, with unknown anywhere or nowhere among them, finds the one
that a text names, and unknown if it names none. -/
theorem getD_find?_names_eq_iff {order : List HealthStatus}
    (hall : ∀ t, t ≠ .unknown → t ∈ order) :
    (order.find? m.names).getD .unknown = s ↔
      m.names s = true ∨ s = .unknown ∧ ∀ t, m.names t = false := by
  cases hfind : order.find? m.names with
  | some t =>
    have ht : m.names t = true := List.find?_some hfind
    constructor
    · rintro rfl
      exact .inl ht
    · rintro (hs | ⟨-, hnone⟩)
      · exact names_unique ht hs
      · simp [hnone t] at ht
  | none =>
    have hothers : ∀ t, t ≠ .unknown → m.names t = false := fun t hne => by
      simpa using List.find?_eq_none.mp hfind t (hall t hne)
    constructor
    · rintro rfl
      cases hunknown : m.names .unknown with
      | true => exact .inl hunknown
      | false =>
        refine .inr ⟨rfl, fun t => ?_⟩
        by_cases ht : t = .unknown
        · rw [ht, hunknown]
        · exact hothers t ht
    · rintro (hs | ⟨rfl, -⟩)
      · by_contra hne
        rw [hothers s (Ne.symm hne)] at hs
        cases hs
      · rfl

/-- The canonical status of a text is the one that it names, and unknown if it names none. -/
theorem canonical_eq_iff :
    m.canonical = s ↔ m.names s = true ∨ s = .unknown ∧ ∀ t, m.names t = false :=
  getD_find?_names_eq_iff fun t hne => by
    revert hne
    cases t <;> decide

/-- The canonical status of a text is found in any order of the statuses. -/
theorem getD_find?_names_eq_canonical {order : List HealthStatus}
    (hall : ∀ t, t ≠ .unknown → t ∈ order) : (order.find? m.names).getD .unknown = m.canonical :=
  (getD_find?_names_eq_iff hall).mpr (canonical_eq_iff.mp rfl)

/-- A text names a status other than unknown just when it is counted under it. -/
theorem names_eq_decide (hs : s ≠ .unknown) : m.names s = decide (m.canonical = s) := by
  rw [Bool.eq_iff_iff, decide_eq_true_eq, canonical_eq_iff]
  exact ⟨.inl, fun h => h.resolve_right fun hunknown => hs hunknown.1⟩

/-- A text spells a status other than unknown just when it is counted under it. -/
theorem spells_iff (hs : s ≠ .unknown) : m.Spells s ↔ m.canonical = s := by
  rw [← names_iff_spells, names_eq_decide hs, decide_eq_true_eq]

/-- A canonical name is counted under its own status. -/
theorem canonical_ofHealth (s : HealthStatus) : (ofHealth s).canonical = s :=
  canonical_eq_iff.mpr (.inl (HealthStatus.names_iff_eq.mpr rfl))

end MemberStatus

/-! ### Ranks -/

/-- How bad a status is. To know nothing of a member is no reason to think badly of the others. -/
def HealthStatus.rank : HealthStatus → Nat
  | unknown => 0
  | healthy => 1
  | degraded => 2
  | unhealthy => 3
  | unreachable => 3

/-- The rank of a reported text: that of the status that it spells, and the lowest if it spells
none. -/
inductive MemberStatus.Ranked (m : MemberStatus) : Nat → Prop
  | spelled {s} : m.Spells s → Ranked m s.rank
  | other : (∀ s, ¬ m.Spells s) → Ranked m 0

/-- A text has the rank of its canonical status, and no other. -/
theorem MemberStatus.ranked_iff {m : MemberStatus} {k : Nat} :
    m.Ranked k ↔ k = m.canonical.rank := by
  constructor
  · rintro (hs | hnone)
    · rw [canonical_eq_iff.mpr (.inl (names_iff_spells.mpr hs))]
    · have hunknown : m.canonical = .unknown :=
        canonical_eq_iff.mpr (.inr ⟨rfl, fun t =>
          Bool.eq_false_iff.mpr fun ht => hnone t (names_iff_spells.mp ht)⟩)
      rw [hunknown]
      rfl
  · rintro rfl
    rcases canonical_eq_iff.mp (rfl : m.canonical = m.canonical) with hs | ⟨hunknown, hnone⟩
    · exact .spelled (names_iff_spells.mp hs)
    · rw [hunknown]
      refine .other fun t ht => ?_
      have hnames := names_iff_spells.mpr ht
      rw [hnone t] at hnames
      cases hnames

theorem HealthStatus.rank_le (s : HealthStatus) : s.rank ≤ 3 := by cases s <;> decide

/-- The greatest rank in a group, the lowest one for no members. -/
def worst (members : List MemberStatus) : Nat :=
  members.foldr (fun m k => max m.canonical.rank k) 0

theorem worst_cons (m : MemberStatus) (ms : List MemberStatus) :
    worst (m :: ms) = max m.canonical.rank (worst ms) := rfl

/-- The worst of a group is no worse than a rank if no member is. -/
theorem worst_le_iff {members : List MemberStatus} {k : Nat} :
    worst members ≤ k ↔ ∀ m ∈ members, m.canonical.rank ≤ k := by
  induction members with
  | nil => simp [worst]
  | cons m ms ih => rw [worst_cons, max_le_iff, ih, List.forall_mem_cons]

/-- The worst of a group is at least as bad as a rank if some member is. -/
theorem le_worst_iff {members : List MemberStatus} {k : Nat} (hk : 0 < k) :
    k ≤ worst members ↔ ∃ m ∈ members, k ≤ m.canonical.rank := by
  rw [← not_lt, ← Nat.le_sub_one_iff_lt hk, worst_le_iff]
  push Not
  simp only [Nat.lt_iff_add_one_le, Nat.sub_add_cancel hk]

/-- The worst of a group is of a rank if no member is worse and some member is of that rank. -/
theorem worst_eq_iff {members : List MemberStatus} {k : Nat} (hk : 0 < k) :
    worst members = k ↔
      (∀ m ∈ members, m.canonical.rank ≤ k) ∧ ∃ m ∈ members, m.canonical.rank = k := by
  rw [← worst_le_iff]
  constructor
  · rintro rfl
    obtain ⟨m, hm, hle⟩ := (le_worst_iff hk).mp le_rfl
    exact ⟨le_rfl, m, hm, (worst_le_iff.mp le_rfl m hm).antisymm hle⟩
  · rintro ⟨hle, m, hm, hrank⟩
    exact hle.antisymm ((le_worst_iff hk).mpr ⟨m, hm, hrank.ge⟩)

/-! ### Looking at the members -/

/-- A member is unhealthy or unreachable just when it has the highest rank. -/
theorem MemberStatus.fails_iff {m : MemberStatus} :
    (m.names .unhealthy || m.names .unreachable) = true ↔ m.canonical.rank = 3 := by
  rw [names_eq_decide (by decide), names_eq_decide (by decide)]
  cases m.canonical <;> decide

/-- The rank of the worst of the members that were looked at, as the two flags tell it. -/
def seenRank (degraded healthy : Bool) : Nat := if degraded then 2 else if healthy then 1 else 0

theorem seenRank_le (degraded healthy : Bool) : seenRank degraded healthy ≤ 2 := by
  cases degraded <;> cases healthy <;> decide

/-- **Step.** Looking at a member that is not of the highest rank keeps the flags right. -/
theorem seenRank_or (degraded healthy : Bool) {m : MemberStatus} (h : m.canonical.rank ≠ 3) :
    seenRank (degraded || m.names .degraded) (healthy || m.names .healthy) =
      max (seenRank degraded healthy) m.canonical.rank := by
  rw [MemberStatus.names_eq_decide (by decide), MemberStatus.names_eq_decide (by decide)]
  revert h
  cases m.canonical <;> cases degraded <;> cases healthy <;> decide

/-- **Run.** Looking at the members behind some that were looked at comes to the rank of the worst
of all: the early return loses nothing, for nothing is worse. -/
theorem rank_aggregateFrom (degraded healthy : Bool) (members : List MemberStatus) :
    (aggregateFrom degraded healthy members).rank =
      max (seenRank degraded healthy) (worst members) := by
  induction members generalizing degraded healthy with
  | nil => cases degraded <;> cases healthy <;> rfl
  | cons m ms ih =>
    rw [aggregateFrom, worst_cons]
    by_cases hfails : m.canonical.rank = 3
    · have hseen := seenRank_le degraded healthy
      have hworst : worst ms ≤ 3 := worst_le_iff.mpr fun m _ => m.canonical.rank_le
      rw [if_pos (MemberStatus.fails_iff.mpr hfails), HealthStatus.rank, hfails]
      omega
    · rw [if_neg (mt MemberStatus.fails_iff.mp hfails), ih, seenRank_or degraded healthy hfails,
        max_assoc]

/-- The status of a group has the rank of its worst member. -/
theorem rank_aggregate (members : List MemberStatus) :
    (aggregate members).rank = worst members := by
  rw [aggregate, rank_aggregateFrom]
  exact Nat.zero_max _

/-- A group that begins behind some looked at is never unreachable as a whole. -/
theorem aggregateFrom_ne_unreachable (degraded healthy : Bool) (members : List MemberStatus) :
    aggregateFrom degraded healthy members ≠ .unreachable := by
  induction members generalizing degraded healthy with
  | nil => cases degraded <;> cases healthy <;> decide
  | cons m ms ih =>
    rw [aggregateFrom]
    split_ifs
    · decide
    · exact ih _ _

/-- A group of members is never unreachable as a whole. -/
theorem aggregate_ne_unreachable (members : List MemberStatus) :
    aggregate members ≠ .unreachable :=
  aggregateFrom_ne_unreachable false false members

/-- The rank of the worst member decides the status of a group. -/
theorem aggregate_eq_iff {members : List MemberStatus} {s : HealthStatus} (hs : s ≠ .unreachable) :
    aggregate members = s ↔ worst members = s.rank := by
  rw [← rank_aggregate]
  have hne := aggregate_ne_unreachable members
  revert hs hne
  cases s <;> cases aggregate members <;> decide

/-! ### The status of a group -/

/-- **The worst member decides.** Wherever the members of a group stand, in whatever case their
texts are, and whatever else is among them: the group is unhealthy just when a member is unhealthy
or unreachable, else degraded just when a member is, else healthy just when a member is, and unknown
when no member is any of these. It is never unreachable, and a member that is replaced by one of the
same or a worse rank never makes it better. -/
theorem aggregate_decided_by_worst (members : List MemberStatus) :
    (aggregate members = .unhealthy ↔
      ∃ m ∈ members, m.Spells .unhealthy ∨ m.Spells .unreachable) ∧
    (aggregate members = .degraded ↔
      (∀ m ∈ members, ¬ m.Spells .unhealthy ∧ ¬ m.Spells .unreachable) ∧
        ∃ m ∈ members, m.Spells .degraded) ∧
    (aggregate members = .healthy ↔
      (∀ m ∈ members, ¬ m.Spells .unhealthy ∧ ¬ m.Spells .unreachable ∧ ¬ m.Spells .degraded) ∧
        ∃ m ∈ members, m.Spells .healthy) ∧
    (aggregate members = .unknown ↔
      ∀ m ∈ members, ¬ m.Spells .unhealthy ∧ ¬ m.Spells .unreachable ∧ ¬ m.Spells .degraded ∧
        ¬ m.Spells .healthy) ∧
    aggregate members ≠ .unreachable ∧
    ∀ before m after m' k k', members = before ++ m :: after → m.Ranked k → m'.Ranked k' →
      k ≤ k' → (aggregate members).rank ≤ (aggregate (before ++ m' :: after)).rank := by
  have hthree (s : HealthStatus) : s.rank = 3 ↔ s = .unhealthy ∨ s = .unreachable := by
    cases s <;> decide
  have htwo (s : HealthStatus) : s.rank = 2 ↔ s = .degraded := by cases s <;> decide
  have hone (s : HealthStatus) : s.rank = 1 ↔ s = .healthy := by cases s <;> decide
  have hletwo (s : HealthStatus) : s.rank ≤ 2 ↔ s ≠ .unhealthy ∧ s ≠ .unreachable := by
    cases s <;> decide
  have hleone (s : HealthStatus) :
      s.rank ≤ 1 ↔ s ≠ .unhealthy ∧ s ≠ .unreachable ∧ s ≠ .degraded := by
    cases s <;> decide
  have hlezero (s : HealthStatus) :
      s.rank ≤ 0 ↔ s ≠ .unhealthy ∧ s ≠ .unreachable ∧ s ≠ .degraded ∧ s ≠ .healthy := by
    cases s <;> decide
  rw [aggregate_eq_iff (by decide), aggregate_eq_iff (by decide), aggregate_eq_iff (by decide),
    aggregate_eq_iff (by decide)]
  simp only [MemberStatus.spells_iff (by decide : HealthStatus.unhealthy ≠ _),
    MemberStatus.spells_iff (by decide : HealthStatus.unreachable ≠ _),
    MemberStatus.spells_iff (by decide : HealthStatus.degraded ≠ _),
    MemberStatus.spells_iff (by decide : HealthStatus.healthy ≠ _)]
  refine ⟨?_, ?_, ?_, ?_, aggregate_ne_unreachable members, ?_⟩
  · rw [HealthStatus.rank, worst_eq_iff (by decide),
      and_iff_right fun m _ => m.canonical.rank_le]
    simp only [hthree]
  · rw [HealthStatus.rank, worst_eq_iff (by decide)]
    simp only [hletwo, htwo, ne_eq]
  · rw [HealthStatus.rank, worst_eq_iff (by decide)]
    simp only [hleone, hone, ne_eq]
  · rw [HealthStatus.rank, ← Nat.le_zero, worst_le_iff]
    simp only [hlezero, ne_eq]
  · rintro before m after m' k k' rfl hk hk' hle
    obtain rfl := MemberStatus.ranked_iff.mp hk
    obtain rfl := MemberStatus.ranked_iff.mp hk'
    rw [rank_aggregate, rank_aggregate, worst_le_iff]
    have hworst := worst_le_iff.mp (le_refl (worst (before ++ m' :: after)))
    intro n hn
    rcases List.mem_append.mp hn with hbefore | hrest
    · exact hworst n (by simp [hbefore])
    · rcases List.mem_cons.mp hrest with rfl | hafter
      · exact hle.trans (hworst m' (by simp))
      · exact hworst n (by simp [hafter])

/-- A member in small letters behind one that says something else: the group is degraded, and with
an unreachable member in the place of the degraded one it is not better. -/
theorem aggregate_decided_by_worst_of_three :
    aggregate [⟨"Warming"⟩, ⟨"degraded"⟩, ⟨"HEALTHY"⟩] = .degraded ∧
      (aggregate [⟨"Warming"⟩, ⟨"degraded"⟩, ⟨"HEALTHY"⟩]).rank ≤
        (aggregate [⟨"Warming"⟩, ⟨"unReachable"⟩, ⟨"HEALTHY"⟩]).rank := by
  obtain ⟨-, hdegraded, -, -, -, hworse⟩ :=
    aggregate_decided_by_worst [⟨"Warming"⟩, ⟨"degraded"⟩, ⟨"HEALTHY"⟩]
  have hspells (m : MemberStatus) (s : HealthStatus) (h : m.names s = true) : m.Spells s :=
    MemberStatus.names_iff_spells.mp h
  have hspellsNot (m : MemberStatus) (s : HealthStatus) (h : m.names s = false) : ¬ m.Spells s :=
    fun hs => by rw [MemberStatus.names_iff_spells.mpr hs] at h; cases h
  refine ⟨hdegraded.mpr ⟨?_, ⟨"degraded"⟩, by simp, hspells _ _ (by decide)⟩, ?_⟩
  · simp only [List.forall_mem_cons, List.not_mem_nil, false_imp_iff, implies_true, and_true]
    exact ⟨⟨hspellsNot _ _ (by decide), hspellsNot _ _ (by decide)⟩,
      ⟨hspellsNot _ _ (by decide), hspellsNot _ _ (by decide)⟩,
      hspellsNot _ _ (by decide), hspellsNot _ _ (by decide)⟩
  · exact hworse [⟨"Warming"⟩] ⟨"degraded"⟩ [⟨"HEALTHY"⟩] ⟨"unReachable"⟩ _ _ rfl
      (.spelled (hspells _ .degraded (by decide))) (.spelled (hspells _ .unreachable (by decide)))
      (by decide)

/-! ### Groups of groups -/

/-- The worst of the statuses of some groups is the worst of all their members. -/
theorem worst_groups {groups : List (List MemberStatus)} {members : List MemberStatus}
    (hmembers : ∀ m, m ∈ members ↔ ∃ g ∈ groups, m ∈ g) :
    worst (groups.map fun g => .ofHealth (aggregate g)) = worst members := by
  refine eq_of_forall_ge_iff fun k => ?_
  rw [worst_le_iff, worst_le_iff, List.forall_mem_map]
  simp only [MemberStatus.canonical_ofHealth, rank_aggregate, worst_le_iff, hmembers]
  constructor
  · rintro h m ⟨g, hg, hm⟩
    exact h g hg m hm
  · exact fun h g hg m hm => h m ⟨g, hg, hm⟩

/-- **Groups of groups.** A group that is put together from groups has the status that it would have
if all of their members were its own: each group counts by the name of its status, read like any
text a member reports. The same holds of every way to split a group into groups, in any order, and
with repeated, overlapping or empty ones. -/
theorem aggregate_of_groups (groups : List (List MemberStatus)) :
    aggregate groups.flatten = aggregate (groups.map fun g => .ofHealth (aggregate g)) ∧
    ∀ members : List MemberStatus, (∀ m, m ∈ members ↔ ∃ g ∈ groups, m ∈ g) →
      aggregate (groups.map fun g => .ofHealth (aggregate g)) = aggregate members := by
  have hsplit (members : List MemberStatus) (h : ∀ m, m ∈ members ↔ ∃ g ∈ groups, m ∈ g) :
      aggregate (groups.map fun g => .ofHealth (aggregate g)) = aggregate members := by
    rw [aggregate_eq_iff (aggregate_ne_unreachable members), rank_aggregate]
    exact worst_groups h
  exact ⟨(hsplit groups.flatten fun m => List.mem_flatten).symm, hsplit⟩

/-- Members split into an empty group, one that holds an unreachable member, and two that share a
member. -/
theorem aggregate_of_groups_of_four :
    aggregate ([[], [⟨"UNREACHABLE"⟩], [⟨"healthy"⟩, ⟨"?"⟩], [⟨"healthy"⟩]].map fun g =>
        .ofHealth (aggregate g)) =
      aggregate [⟨"?"⟩, ⟨"healthy"⟩, ⟨"UNREACHABLE"⟩] := by
  refine (aggregate_of_groups _).2 _ fun m => ?_
  simp only [List.mem_cons, List.not_mem_nil, or_false, exists_eq_or_imp, exists_eq_left]
  tauto

end ServiceHealth
