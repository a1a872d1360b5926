import Mathlib.Data.List.Forall2
import ServiceHealth.Metrics

/-!
# Metrics that agree but for some durations

Two sequences of reports that differ only in how long some members took leave metrics that differ
only in the durations of these members: the counters and the gauges are the same, and so is the
number of durations that were observed. A relation between series is kept by an update of one
key (`Series.Related.update`), hence a relation between metrics by a single change
(`AgreeExcept.apply`), and by all changes of any number of reports (`AgreeExcept.record`).

## Main definitions

* `Series.Related` — series with the same keys and related values.
* `Metrics.AgreeExcept`, `MemberReport.AgreeExcept`, `ApplicationReport.AgreeExcept` — agreement
  but for the durations of the members with certain names.

## Main results

* `Metrics.AgreeExcept.record` — recording reports that agree keeps metrics in agreement.
* `Metrics.AgreeExcept.eq` — metrics that agree without exception are equal.
-/

namespace ServiceHealth

/-! ### Series -/

namespace Metrics.Series

variable {κ α : Type} [DecidableEq κ] {R : κ → α → α → Prop}

omit [DecidableEq κ] in
/-- Two series have the same keys in the same order, and related values. -/
def Related (R : κ → α → α → Prop) (s s' : Series κ α) : Prop :=
  List.Forall₂ (fun e e' => e.1 = e'.1 ∧ R e.1 e.2 e'.2) s.entries s'.entries

/-- Updating the same key with functions that keep the relation keeps series related. -/
theorem Related.update {s s' : Series κ α} (h : s.Related R s') {k : κ} {f f' : Option α → α}
    (hnone : R k (f none) (f' none))
    (hsome : ∀ a a', R k a a' → R k (f (some a)) (f' (some a'))) :
    (s.update k f).Related R (s'.update k f') := by
  obtain ⟨entries⟩ := s
  obtain ⟨entries'⟩ := s'
  have hentries : List.Forall₂ (fun e e' => e.1 = e'.1 ∧ R e.1 e.2 e'.2) entries entries' := h
  show List.Forall₂ _ (upsert k f entries) (upsert k f' entries')
  induction hentries with
  | nil => exact .cons ⟨rfl, hnone⟩ .nil
  | @cons e e' es es' he hes ih =>
    rw [upsert, upsert, ← he.1]
    by_cases hk : e.1 = k
    · rw [if_pos hk, if_pos hk]
      exact .cons ⟨rfl, hsome _ _ (hk ▸ he.2)⟩ hes
    · rw [if_neg hk, if_neg hk]
      exact .cons he (ih hes)

end Metrics.Series

/-! ### Single changes -/

namespace Metrics

variable {masked : String → Prop}

/-- Metrics agree but for the durations of the members with certain names; of those as many
durations were observed. -/
structure AgreeExcept (masked : String → Prop) (m m' : Metrics) : Prop where
  probes : m.probes = m'.probes
  gauges : m.gauges = m'.gauges
  durations : m.durations.Related
    (fun member h h' => h.count = h'.count ∧ (¬ masked member → h = h')) m'.durations

/-- Changes that are the same but for the durations of the members with certain names. -/
inductive Update.AgreeExcept (masked : String → Prop) : Update → Update → Prop
  | same (u) : AgreeExcept masked u u
  | lasted {member} (ms ms') : masked member →
      AgreeExcept masked (.lasted member ms) (.lasted member ms')

/-- Metrics agree with themselves. -/
theorem AgreeExcept.refl (m : Metrics) : m.AgreeExcept masked m :=
  ⟨rfl, rfl, List.forall₂_same.mpr fun _ _ => ⟨rfl, rfl, fun _ => rfl⟩⟩

/-- Metrics that agree without exception are equal. -/
theorem AgreeExcept.eq {m m' : Metrics} (h : m.AgreeExcept (fun _ => False) m') : m = m' := by
  obtain ⟨probes, ⟨durations⟩, gauges⟩ := m
  obtain ⟨probes', ⟨durations'⟩, gauges'⟩ := m'
  obtain ⟨rfl, rfl, hdurations⟩ := h
  have heq : List.Forall₂ Eq durations durations' :=
    hdurations.imp fun _ _ he => Prod.ext he.1 (he.2.2 not_false)
  rw [List.forall₂_eq_eq_eq] at heq
  rw [heq]

/-- **Step.** Single changes that agree keep metrics in agreement. -/
theorem AgreeExcept.apply {m m' : Metrics} (h : m.AgreeExcept masked m') {u u' : Update}
    (hu : u.AgreeExcept masked u') : (m.apply u).AgreeExcept masked (m'.apply u') := by
  cases hu with
  | same u =>
    cases u with
    | probed member status =>
      have hprobes := congrArg (·.update (member, status) fun n => n.getD 0 + 1) h.probes
      exact ⟨hprobes, h.gauges, h.durations⟩
    | lasted member ms =>
      refine ⟨h.probes, h.gauges, h.durations.update ⟨rfl, fun _ => rfl⟩ ?_⟩
      intro a a' ha
      exact ⟨congrArg (· + 1) ha.1, fun hnot => by rw [ha.2 hnot]⟩
    | measured gauge application value =>
      have hgauges := congrArg (·.update (gauge, application) fun _ => value) h.gauges
      exact ⟨h.probes, hgauges, h.durations⟩
  | lasted ms ms' hmasked =>
    refine ⟨h.probes, h.gauges, h.durations.update ⟨rfl, fun hnot => absurd hmasked hnot⟩ ?_⟩
    intro a a' ha
    exact ⟨congrArg (· + 1) ha.1, fun hnot => absurd hmasked hnot⟩

/-- Changes that agree one by one keep metrics in agreement. -/
theorem AgreeExcept.applyAll {us us' : List Update}
    (hus : List.Forall₂ (Update.AgreeExcept masked) us us') {m m' : Metrics}
    (h : m.AgreeExcept masked m') : (m.applyAll us).AgreeExcept masked (m'.applyAll us') := by
  induction hus generalizing m m' with
  | nil => exact h
  | cons hu _ ih => exact ih (h.apply hu)

end Metrics

/-! ### Reports -/

/-- Reports of members that agree in name and status, and in the duration unless the name is one
of certain names. -/
structure MemberReport.AgreeExcept (masked : String → Prop) (m m' : MemberReport) : Prop where
  name : m.name = m'.name
  status : m.status = m'.status
  duration : m.durationMs = m'.durationMs ∨ masked m.name

/-- Reports of applications that agree in the name and, member by member, but for the durations
of the members with certain names. -/
structure ApplicationReport.AgreeExcept (masked : String → Prop) (r r' : ApplicationReport) :
    Prop where
  name : r.name = r'.name
  members : List.Forall₂ (MemberReport.AgreeExcept masked) r.members r'.members

variable {masked : String → Prop}

open Metrics

/-- What reports of members that agree change agrees. -/
theorem MemberReport.AgreeExcept.updates {m m' : MemberReport} (h : m.AgreeExcept masked m') :
    List.Forall₂ (Update.AgreeExcept masked) m.updates m'.updates := by
  rw [MemberReport.updates, MemberReport.updates, ← h.name, ← h.status]
  refine .cons (.same _) (.cons ?_ .nil)
  rcases h.duration with heq | hmasked
  · rw [heq]
    exact .same _
  · exact .lasted _ _ hmasked

namespace ApplicationReport.AgreeExcept

variable {r r' : ApplicationReport}

/-- Reports that agree have the same statuses, member by member. -/
theorem map_status_eq (h : r.AgreeExcept masked r') :
    r.members.map (·.status) = r'.members.map (·.status) := by
  rw [← List.forall₂_eq_eq_eq, List.forall₂_map_left_iff, List.forall₂_map_right_iff]
  exact h.members.imp fun _ _ hm => hm.status

/-- Reports that agree have the same status. -/
theorem status_eq (h : r.AgreeExcept masked r') : r.status = r'.status :=
  congrArg aggregate h.map_status_eq

/-- Reports that agree count as many healthy members. -/
theorem healthyCount_eq (h : r.AgreeExcept masked r') : r.healthyCount = r'.healthyCount := by
  have hcount := congrArg (List.countP (·.names .healthy)) h.map_status_eq
  rwa [List.countP_map, List.countP_map] at hcount

/-- What reports of applications that agree change agrees: the gauges read statuses only. -/
theorem updates (h : r.AgreeExcept masked r') :
    List.Forall₂ (Update.AgreeExcept masked) r.updates r'.updates := by
  have htotal : r.totalCount = r'.totalCount := h.members.length_eq
  refine List.rel_append ?_ ?_
  · exact List.rel_flatMap h.members fun _ _ hm => hm.updates
  · rw [gaugeUpdates, gaugeUpdates, ← h.name, ← h.status_eq, ← h.healthyCount_eq, ← htotal]
    exact List.forall₂_same.mpr fun u _ => .same u

end ApplicationReport.AgreeExcept

/-- **Run.** Recording reports that agree keeps metrics in agreement. -/
theorem Metrics.AgreeExcept.record {rs rs' : List ApplicationReport}
    (hrs : List.Forall₂ (ApplicationReport.AgreeExcept masked) rs rs') {m m' : Metrics}
    (h : m.AgreeExcept masked m') :
    (rs.foldl Metrics.record m).AgreeExcept masked (rs'.foldl Metrics.record m') := by
  induction hrs generalizing m m' with
  | nil => exact h
  | cons hr _ ih => exact ih (h.applyAll hr.updates)

end ServiceHealth
