import ServiceHealth.Proofs.Metrics.Overlap

/-!
# What reports add to metrics

Whatever was counted and measured before, recording reports adds their entries to it and nothing
else: the counter of a member and a status grows by the entries that count under them, the
histogram of a member observes their durations, and a gauge of an application is set by its last
report or keeps its value.

## Main definitions

* `Metrics.counterOf`, `Metrics.histogramOf` — what is counted and measured of a member.
* `Metrics.GrowsBy` — metrics before and after some reports.

## Main results

* `Metrics.growsBy_record` — recording reports adds them.
* `Metrics.GrowsBy.member_eq`, `Metrics.GrowsBy.gauge_eq` — what reports do not bear on stays.
-/

namespace ServiceHealth

namespace Metrics

/-- How often a member was counted under a status. -/
def counterOf (m : Metrics) (member : String) (s : HealthStatus) : Nat :=
  (m.probes.get? (member, s)).getD 0

/-- The histogram of a member, empty if it was never probed. -/
def histogramOf (m : Metrics) (member : String) : Histogram :=
  (m.durations.get? member).getD .empty

/-- Metrics after some reports: every entry is counted and observed once more, every gauge shows the
last report of its application, and all else is as it was. -/
structure GrowsBy (rs : List ApplicationReport) (m m' : Metrics) : Prop where
  counters : ∀ member s, m'.counterOf member s = m.counterOf member s + probeCount rs member s
  histograms : ∀ member, m'.histogramOf member =
    (((entriesOf rs).filter (·.name = member)).map (·.durationMs)).foldl Histogram.observe
      (m.histogramOf member)
  gauges : ∀ application g, m'.gaugeOf? application g =
    ((lastReport? rs application).map g.value).or (m.gaugeOf? application g)

/-- **Step.** A change adds to the counter of its member and its status alone. -/
theorem counterOf_apply (m : Metrics) (u : Update) (member : String) (s : HealthStatus) :
    (m.apply u).counterOf member s =
      m.counterOf member s + if u = .probed member s then 1 else 0 := by
  cases u with
  | probed name status =>
    by_cases hkey : (name, status) = (member, s)
    · obtain ⟨rfl, rfl⟩ := Prod.mk.inj hkey
      rw [if_pos rfl, counterOf, apply, Series.get?_update_self]
      rfl
    · have hne : Update.probed name status ≠ .probed member s := by
        rintro ⟨⟩
        exact hkey rfl
      rw [if_neg hne, counterOf, apply, Series.get?_update_of_ne _ (Ne.symm hkey)]
      rfl
  | lasted name ms => rfl
  | measured gauge application value => rfl

/-- **Run.** Several changes add to a counter as often as it is among them. -/
theorem counterOf_applyAll (m : Metrics) (us : List Update) (member : String) (s : HealthStatus) :
    (m.applyAll us).counterOf member s = m.counterOf member s + us.count (.probed member s) := by
  induction us generalizing m with
  | nil => rfl
  | cons u us ih =>
    have hrest := ih (m.apply u)
    rw [counterOf_apply] at hrest
    rw [List.count_cons, applyAll, List.foldl_cons, ← applyAll, hrest]
    simp only [beq_iff_eq]
    omega

/-- **Step.** A change is observed by the histogram of its member alone. -/
theorem histogramOf_apply (m : Metrics) (u : Update) (member : String) :
    (m.apply u).histogramOf member =
      (u.duration? member).elim (m.histogramOf member) (m.histogramOf member).observe := by
  cases u with
  | probed name status => rfl
  | lasted name ms =>
    rw [Update.duration?]
    by_cases hname : name = member
    · rw [if_pos hname, ← hname, histogramOf, apply, Series.get?_update_self]
      rfl
    · rw [if_neg hname, histogramOf, apply, Series.get?_update_of_ne _ (Ne.symm hname)]
      rfl
  | measured gauge application value => rfl

/-- **Run.** A histogram observes the durations of its member in several changes. -/
theorem histogramOf_applyAll (m : Metrics) (us : List Update) (member : String) :
    (m.applyAll us).histogramOf member =
      (us.filterMap (Update.duration? member)).foldl Histogram.observe (m.histogramOf member) := by
  induction us generalizing m with
  | nil => rfl
  | cons u us ih =>
    have hrest := ih (m.apply u)
    rw [histogramOf_apply] at hrest
    rw [applyAll, List.foldl_cons, ← applyAll, hrest, List.filterMap_cons]
    cases u.duration? member <;> rfl

/-- **Recording reports adds them to what was counted and measured.** -/
theorem growsBy_record (rs : List ApplicationReport) (m : Metrics) :
    GrowsBy rs m (rs.foldl record m) := by
  rw [foldl_record]
  refine ⟨fun member s => ?_, fun member => ?_, fun application g => ?_⟩
  · rw [counterOf_applyAll, probeCount, entriesOf, List.count_flatMap, List.countP_flatMap]
    congr 2
    exact List.map_congr_left fun r _ => count_updates r member s
  · rw [histogramOf_applyAll, entriesOf, List.filterMap_flatMap, List.filter_flatMap,
      List.map_flatMap]
    congr 1
    exact List.flatMap_congr fun r _ => filterMap_duration?_updates r member
  · rw [gaugeOf?_applyAll, gaugeIn_updates]

variable {rs : List ApplicationReport} {m m' : Metrics}

/-- What is counted and measured of a member that has no entry in the reports stays. -/
theorem GrowsBy.member_eq (h : GrowsBy rs m m') {member : String}
    (hnone : ∀ e ∈ entriesOf rs, e.name ≠ member) :
    (∀ s, m'.counterOf member s = m.counterOf member s) ∧
      m'.histogramOf member = m.histogramOf member := by
  constructor
  · intro s
    have hcount : probeCount rs member s = 0 := by
      rw [probeCount, List.countP_eq_zero]
      intro e he
      simp [hnone e he]
    rw [h.counters, hcount, Nat.add_zero]
  · have hfilter : (entriesOf rs).filter (·.name = member) = [] := by
      rw [List.filter_eq_nil_iff]
      intro e he
      simp [hnone e he]
    rw [h.histograms, hfilter]
    rfl

/-- The gauges of an application without a report stay. -/
theorem GrowsBy.gauge_eq (h : GrowsBy rs m m') {application : String}
    (hnone : ∀ r ∈ rs, r.name ≠ application) (g : Gauge) :
    m'.gaugeOf? application g = m.gaugeOf? application g := by
  have hlast : lastReport? rs application = none := by
    rw [lastReport?, List.getLast?_eq_none_iff, List.filter_eq_nil_iff]
    intro r hr
    simp [hnone r hr]
  rw [h.gauges, hlast]
  rfl

end Metrics

end ServiceHealth
