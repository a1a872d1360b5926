import Mathlib.Data.List.Nodup
import ServiceHealth.Metrics
import ServiceHealth.Proofs.Status.Counts

/-!
# Metrics as tallies of reports

What is counted and measured can be read off the reports that were recorded. A series has one value
for each of its keys, so a partial function tells it (`Metrics.Series.Holds`), and an update of the
series is one of the function (`Metrics.Series.Holds.update`). Single changes one after another
therefore leave the number of probes, all durations and the last values of the gauges
(`Metrics.Follows.applyAll`). Those of reports come from the entries of their members and from the
last report of each application (`Metrics.tallies_record`).

## Main definitions

* `Metrics.Series.Holds` — a series has exactly the values of a partial function.
* `Metrics.Follows` — metrics that single changes leave.
* `MemberReport.CountsUnder`, `probeCount`, `lastReport?`, `Gauge.Shows` — what reports amount to.
* `Metrics.Tallies` — metrics that are the tallies of reports.

## Main results

* `Metrics.tallies_record` — recording reports leaves their tallies.
-/

namespace ServiceHealth

open Metrics

/-! ### Series -/

namespace Metrics.Series

variable {κ α : Type}

/-- A series has exactly the values of a partial function, and each key once. -/
structure Holds (s : Series κ α) (value : κ → Option α) : Prop where
  nodup : (s.entries.map Prod.fst).Nodup
  mem_iff : ∀ k a, (k, a) ∈ s.entries ↔ value k = some a

/-- A series without entries has no values. -/
theorem holds_empty : Holds ({} : Series κ α) fun _ => none where
  nodup := List.nodup_nil
  mem_iff := by simp

variable [DecidableEq κ]

/-- Updating a key keeps the keys in their order, and adds the key if it is new. -/
theorem map_fst_upsert (k : κ) (f : Option α → α) (es : List (κ × α)) :
    (upsert k f es).map Prod.fst =
      if k ∈ es.map Prod.fst then es.map Prod.fst else es.map Prod.fst ++ [k] := by
  induction es with
  | nil => simp [upsert]
  | cons e es ih =>
    by_cases he : e.1 = k
    · simp [upsert, he]
    · rw [upsert, if_neg he, List.map_cons, ih, List.map_cons]
      by_cases hmem : k ∈ es.map Prod.fst
      · rw [if_pos hmem, if_pos (List.mem_cons_of_mem _ hmem)]
      · rw [if_neg hmem, if_neg (List.not_mem_cons_of_ne_of_not_mem (Ne.symm he) hmem),
          List.cons_append]

/-- When each key is there once, the entries are what looking up finds. -/
theorem mem_iff_lookup?_eq {es : List (κ × α)} (hnodup : (es.map Prod.fst).Nodup) {k : κ} {a : α} :
    (k, a) ∈ es ↔ lookup? k es = some a := by
  induction es with
  | nil => simp [lookup?]
  | cons e es ih =>
    obtain ⟨hnew, hnodup⟩ := List.nodup_cons.mp hnodup
    rw [lookup?, List.mem_cons, ih hnodup]
    by_cases he : e.1 = k
    · have hnone : lookup? k es ≠ some a := fun h =>
        hnew (he ▸ List.mem_map_of_mem (f := Prod.fst) ((ih hnodup).mpr h))
      rw [if_pos he, Option.some.injEq]
      constructor
      · rintro (rfl | h)
        · rfl
        · exact absurd h hnone
      · rintro rfl
        exact .inl (Prod.ext he.symm rfl)
    · rw [if_neg he]
      refine or_iff_right fun h => he ?_
      rw [← h]

/-- A series has the values of a function when looking up finds these. -/
theorem holds_iff {s : Series κ α} {value : κ → Option α} :
    s.Holds value ↔ (s.entries.map Prod.fst).Nodup ∧ s.get? = value := by
  constructor
  · rintro ⟨hnodup, hmem⟩
    refine ⟨hnodup, funext fun k => Option.ext fun a => ?_⟩
    rw [get?, ← mem_iff_lookup?_eq hnodup, hmem]
  · rintro ⟨hnodup, rfl⟩
    exact ⟨hnodup, fun k a => mem_iff_lookup?_eq hnodup⟩

/-- **Step.** An update of a series is one of its function. -/
theorem Holds.update {s : Series κ α} {value : κ → Option α} (h : s.Holds value) (k : κ)
    (f : Option α → α) : (s.update k f).Holds (Function.update value k (some (f (value k)))) := by
  obtain ⟨hnodup, rfl⟩ := holds_iff.mp h
  refine holds_iff.mpr ⟨?_, funext fun l => ?_⟩
  · show ((upsert k f s.entries).map Prod.fst).Nodup
    rw [map_fst_upsert]
    split
    next => exact hnodup
    next hnew => exact List.Nodup.append hnodup (List.nodup_singleton k) (by simpa using hnew)
  · by_cases hl : l = k
    · rw [hl, get?_update_self, Function.update_self]
    · rw [get?_update_of_ne s hl, Function.update_of_ne hl]

end Metrics.Series

/-! ### Single changes -/

namespace Metrics

/-- The duration of a member in a change. -/
def Update.duration? (member : String) : Update → Option Nat
  | .lasted name ms => if name = member then some ms else none
  | _ => none

/-- The value of a gauge in a change. -/
def Update.value? (key : Gauge × String) : Update → Option Nat
  | .measured gauge application value => if (gauge, application) = key then some value else none
  | _ => none

/-- How often a member was probed with a status, unless it never was. -/
def probesIn (us : List Update) (key : String × HealthStatus) : Option Nat :=
  match us.count (.probed key.1 key.2) with
  | 0 => none
  | n => some n

/-- The histogram of the durations of a member, unless there are none. -/
def durationsIn (us : List Update) (member : String) : Option Histogram :=
  match us.filterMap (Update.duration? member) with
  | [] => none
  | ms => some (ms.foldl Histogram.observe .empty)

/-- The last value of a gauge, if there is one. -/
def gaugeIn (us : List Update) (key : Gauge × String) : Option Nat :=
  (us.filterMap (Update.value? key)).getLast?

variable (us : List Update)

/-- A probe counts for its member and its status. -/
theorem probesIn_probed (member : String) (status : HealthStatus) :
    probesIn (us ++ [.probed member status]) = Function.update (probesIn us) (member, status)
      (some ((probesIn us (member, status)).getD 0 + 1)) := by
  funext key
  by_cases hkey : key = (member, status)
  · subst hkey
    rw [Function.update_self]
    simp only [probesIn, List.count_append, List.count_singleton_self]
    cases us.count (.probed member status) <;> rfl
  · have hne : Update.probed member status ≠ .probed key.1 key.2 := by
      rintro ⟨⟩
      exact hkey rfl
    rw [Function.update_of_ne hkey]
    simp [probesIn, hne]

/-- Other changes count for no probe. -/
theorem probesIn_of_ne {u : Update} (hu : ∀ member status, u ≠ .probed member status) :
    probesIn (us ++ [u]) = probesIn us := by
  funext key
  simp [probesIn, hu]

/-- A duration goes into the histogram of its member. -/
theorem durationsIn_lasted (member : String) (ms : Nat) :
    durationsIn (us ++ [.lasted member ms]) = Function.update (durationsIn us) member
      (some (((durationsIn us member).getD .empty).observe ms)) := by
  funext name
  by_cases hname : name = member
  · subst hname
    rw [Function.update_self]
    simp only [durationsIn, List.filterMap_append]
    cases us.filterMap (Update.duration? name) <;> simp [Update.duration?]
  · rw [Function.update_of_ne hname]
    simp [durationsIn, Update.duration?, Ne.symm hname]

/-- Other changes go into no histogram. -/
theorem durationsIn_of_ne {u : Update} (hu : ∀ member ms, u ≠ .lasted member ms) :
    durationsIn (us ++ [u]) = durationsIn us := by
  funext name
  have hnone : u.duration? name = none := by
    cases u with
    | lasted member ms => exact absurd rfl (hu member ms)
    | _ => rfl
  simp [durationsIn, hnone]

/-- A gauge has the value that was measured last. -/
theorem gaugeIn_measured (gauge : Gauge) (application : String) (value : Nat) :
    gaugeIn (us ++ [.measured gauge application value]) =
      Function.update (gaugeIn us) (gauge, application) (some value) := by
  funext key
  by_cases hkey : key = (gauge, application)
  · subst hkey
    simp [gaugeIn, Update.value?]
  · rw [Function.update_of_ne hkey]
    simp [gaugeIn, Update.value?, Ne.symm hkey]

/-- Other changes change no gauge. -/
theorem gaugeIn_of_ne {u : Update} (hu : ∀ gauge application value,
    u ≠ .measured gauge application value) : gaugeIn (us ++ [u]) = gaugeIn us := by
  funext key
  have hnone : u.value? key = none := by
    cases u with
    | measured gauge application value => exact absurd rfl (hu gauge application value)
    | _ => rfl
  simp [gaugeIn, hnone]

/-- Metrics after single changes: the number of probes, the histogram of all durations in order,
and the last value of each gauge. -/
structure Follows (us : List Update) (m : Metrics) : Prop where
  probes : m.probes.Holds (probesIn us)
  durations : m.durations.Holds (durationsIn us)
  gauges : m.gauges.Holds (gaugeIn us)

/-- Nothing was changed at first. -/
theorem follows_nil : Follows [] {} where
  probes := Series.holds_empty
  durations := Series.holds_empty
  gauges := Series.holds_empty

variable {us : List Update} {m : Metrics}

/-- **Step.** One more change. -/
theorem Follows.apply (h : m.Follows us) (u : Update) : (m.apply u).Follows (us ++ [u]) := by
  cases u with
  | probed member status =>
    refine ⟨?_, ?_, ?_⟩
    · rw [probesIn_probed]
      exact h.probes.update (member, status) _
    · rw [durationsIn_of_ne us (by simp)]
      exact h.durations
    · rw [gaugeIn_of_ne us (by simp)]
      exact h.gauges
  | lasted member ms =>
    refine ⟨?_, ?_, ?_⟩
    · rw [probesIn_of_ne us (by simp)]
      exact h.probes
    · rw [durationsIn_lasted]
      exact h.durations.update member _
    · rw [gaugeIn_of_ne us (by simp)]
      exact h.gauges
  | measured gauge application value =>
    refine ⟨?_, ?_, ?_⟩
    · rw [probesIn_of_ne us (by simp)]
      exact h.probes
    · rw [durationsIn_of_ne us (by simp)]
      exact h.durations
    · rw [gaugeIn_measured]
      exact h.gauges.update (gauge, application) _

/-- **Run.** More changes, one after another. -/
theorem Follows.applyAll (h : m.Follows us) (vs : List Update) :
    (m.applyAll vs).Follows (us ++ vs) := by
  induction vs generalizing us m with
  | nil => rwa [List.append_nil]
  | cons v vs ih =>
    have hv := ih (h.apply v)
    rwa [List.append_assoc, List.singleton_append] at hv

/-- Changes from none. -/
theorem follows_applyAll (us : List Update) : (applyAll {} us).Follows us :=
  follows_nil.applyAll us

end Metrics

/-! ### Reports -/

/-- The entry of a member counts under a status: its text is the name of the status up to ASCII
case, or the status is unknown and the text is the name of none. -/
def MemberReport.CountsUnder (m : MemberReport) (s : HealthStatus) : Prop :=
  m.status.names s = true ∨ s = .unknown ∧ ∀ t ∈ HealthStatus.all, m.status.names t = false

instance (m : MemberReport) (s : HealthStatus) : Decidable (m.CountsUnder s) :=
  inferInstanceAs (Decidable (_ ∨ _))

/-- The entries of the members in all of some reports. -/
def entriesOf (rs : List ApplicationReport) : List MemberReport := rs.flatMap (·.members)

/-- How many entries of some reports have a name and count under a status. -/
def probeCount (rs : List ApplicationReport) (member : String) (s : HealthStatus) : Nat :=
  (entriesOf rs).countP fun m => m.name = member ∧ m.CountsUnder s

/-- The last report of an application among some reports. -/
def lastReport? (rs : List ApplicationReport) (application : String) : Option ApplicationReport :=
  (rs.filter (·.name = application)).getLast?

/-- The value that a gauge shows after a report. -/
inductive Gauge.Shows (r : ApplicationReport) : Gauge → Nat → Prop
  | healthy : r.status = .healthy → Shows r .status 0
  | degraded : r.status = .degraded → Shows r .status 1
  | unhealthy : r.status = .unhealthy → Shows r .status 2
  | unknown : r.status = .unknown → Shows r .status 3
  | healthyMembers : Shows r .healthyMembers r.healthyCount
  | totalMembers : Shows r .totalMembers r.totalCount

namespace Metrics

/-- Metrics that are the tallies of some reports. A counter of probes is there when it is not zero,
a histogram when its member was probed, a gauge when its application was checked; there is nothing
else, and nothing twice. -/
structure Tallies (rs : List ApplicationReport) (m : Metrics) : Prop where
  probes_nodup : (m.probes.entries.map Prod.fst).Nodup
  probes : ∀ member status n, ((member, status), n) ∈ m.probes.entries ↔
    n = probeCount rs member status ∧ 0 < n
  durations_nodup : (m.durations.entries.map Prod.fst).Nodup
  durations : ∀ member, (∃ h, (member, h) ∈ m.durations.entries) ↔
    ∃ status, 0 < probeCount rs member status
  samples : ∀ member h, (member, h) ∈ m.durations.entries →
    h.count = (HealthStatus.all.map (probeCount rs member)).sum
  gauges_nodup : (m.gauges.entries.map Prod.fst).Nodup
  gauges : ∀ gauge application n, ((gauge, application), n) ∈ m.gauges.entries ↔
    ∃ r, lastReport? rs application = some r ∧ gauge.Shows r n

end Metrics

/-- An entry counts under its canonical status, and under no other. -/
theorem MemberReport.countsUnder_iff {m : MemberReport} {s : HealthStatus} :
    m.CountsUnder s ↔ m.status.canonical = s := by
  rw [CountsUnder, MemberStatus.canonical_eq_iff]
  exact or_congr_right (and_congr_right fun _ =>
    ⟨fun h t => h t (HealthStatus.mem_all t), fun h t _ => h t⟩)

/-- The probes of a member are those that count under one of the statuses. -/
theorem sum_probeCount (rs : List ApplicationReport) (member : String) :
    (HealthStatus.all.map (probeCount rs member)).sum =
      (entriesOf rs).countP (·.name = member) := by
  have hcount (s : HealthStatus) : probeCount rs member s =
      countUnder (((entriesOf rs).filter (·.name = member)).map (·.status)) s := by
    rw [probeCount, countUnder, List.countP_map, List.countP_filter]
    refine List.countP_congr fun m _ => ?_
    simp [MemberReport.countsUnder_iff, and_comm]
  rw [funext hcount, sum_countUnder, List.length_map, List.countP_eq_length_filter]

/-- The value of a gauge after a report. -/
def Gauge.value (r : ApplicationReport) : Gauge → Nat
  | status => r.status.code
  | healthyMembers => r.healthyCount
  | totalMembers => r.totalCount

/-- The value of a gauge is what it shows. -/
theorem Gauge.shows_iff {r : ApplicationReport} {g : Gauge} {n : Nat} :
    g.Shows r n ↔ n = g.value r := by
  constructor
  · rintro (h | h | h | h | - | -) <;> simp [value, HealthStatus.code, *]
  · rintro rfl
    cases g with
    | status =>
      cases hstatus : r.status with
      | healthy => simpa [value, hstatus, HealthStatus.code] using Shows.healthy hstatus
      | degraded => simpa [value, hstatus, HealthStatus.code] using Shows.degraded hstatus
      | unhealthy => simpa [value, hstatus, HealthStatus.code] using Shows.unhealthy hstatus
      | unreachable => exact absurd hstatus (aggregate_ne_unreachable _)
      | unknown => simpa [value, hstatus, HealthStatus.code] using Shows.unknown hstatus
    | healthyMembers => exact .healthyMembers
    | totalMembers => exact .totalMembers

/-- The changes of one report count the entries of its members. -/
theorem count_updates (r : ApplicationReport) (member : String) (s : HealthStatus) :
    r.updates.count (.probed member s) =
      r.members.countP fun m => m.name = member ∧ m.CountsUnder s := by
  have hgauges : r.gaugeUpdates.count (.probed member s) = 0 := by
    simp [ApplicationReport.gaugeUpdates]
  rw [ApplicationReport.updates, List.count_append, hgauges, Nat.add_zero]
  simp only [MemberReport.countsUnder_iff]
  induction r.members with
  | nil => rfl
  | cons m ms ih =>
    rw [List.flatMap_cons, List.count_append, ih, List.countP_cons, Nat.add_comm]
    congr 1
    simp [MemberReport.updates, List.count_cons]

/-- The durations that the changes of a report hold are those of its members. -/
theorem filterMap_duration?_updates (r : ApplicationReport) (member : String) :
    r.updates.filterMap (Update.duration? member) =
      (r.members.filter (·.name = member)).map (·.durationMs) := by
  have hgauges : r.gaugeUpdates.filterMap (Update.duration? member) = [] := rfl
  rw [ApplicationReport.updates, List.filterMap_append, hgauges, List.append_nil]
  induction r.members with
  | nil => rfl
  | cons m ms ih =>
    rw [List.flatMap_cons, List.filterMap_append, ih, List.filter_cons]
    by_cases hname : m.name = member <;>
      simp [MemberReport.updates, Update.duration?, hname, List.filterMap_cons]

/-- The changes of a report hold one value for each gauge of the application. -/
theorem filterMap_value?_updates (r : ApplicationReport) (g : Gauge) (application : String) :
    r.updates.filterMap (Update.value? (g, application)) =
      if r.name = application then [g.value r] else [] := by
  have hmembers : (r.members.flatMap MemberReport.updates).filterMap
      (Update.value? (g, application)) = [] := by
    rw [List.filterMap_eq_nil_iff]
    intro u hu
    obtain ⟨m, -, hu⟩ := List.mem_flatMap.mp hu
    simp only [MemberReport.updates, List.mem_cons, List.not_mem_nil, or_false] at hu
    rcases hu with rfl | rfl <;> rfl
  rw [ApplicationReport.updates, List.filterMap_append, hmembers, List.nil_append]
  by_cases hname : r.name = application <;> cases g <;>
    simp [ApplicationReport.gaugeUpdates, Update.value?, Gauge.value, hname]

namespace Metrics

/-- Recording reports makes all of their changes in turn. -/
theorem foldl_record (rs : List ApplicationReport) (m : Metrics) :
    rs.foldl record m = m.applyAll (rs.flatMap ApplicationReport.updates) := by
  induction rs generalizing m with
  | nil => rfl
  | cons r rs ih =>
    rw [List.foldl_cons, ih, List.flatMap_cons, applyAll_append]
    rfl

variable (rs : List ApplicationReport)

/-- The counter of the probes of a member with a status. -/
theorem probesIn_updates (member : String) (s : HealthStatus) :
    probesIn (rs.flatMap ApplicationReport.updates) (member, s) =
      match probeCount rs member s with
      | 0 => none
      | n => some n := by
  have hcount : (rs.flatMap ApplicationReport.updates).count (.probed member s) =
      probeCount rs member s := by
    rw [probeCount, entriesOf, List.count_flatMap, List.countP_flatMap]
    exact congrArg List.sum (List.map_congr_left fun r _ => count_updates r member s)
  rw [probesIn, hcount]

/-- The histogram of the durations of a member. -/
theorem durationsIn_updates (member : String) :
    durationsIn (rs.flatMap ApplicationReport.updates) member =
      match ((entriesOf rs).filter (·.name = member)).map (·.durationMs) with
      | [] => none
      | ms => some (ms.foldl Histogram.observe .empty) := by
  have hdurations : (rs.flatMap ApplicationReport.updates).filterMap (Update.duration? member) =
      ((entriesOf rs).filter (·.name = member)).map (·.durationMs) := by
    rw [entriesOf, List.filterMap_flatMap, List.filter_flatMap, List.map_flatMap]
    exact List.flatMap_congr fun r _ => filterMap_duration?_updates r member
  rw [durationsIn, hdurations]

/-- The gauges of an application have the values of its last report. -/
theorem gaugeIn_updates (g : Gauge) (application : String) :
    gaugeIn (rs.flatMap ApplicationReport.updates) (g, application) =
      (lastReport? rs application).map g.value := by
  have hvalues : (rs.flatMap ApplicationReport.updates).filterMap
      (Update.value? (g, application)) = (rs.filter (·.name = application)).map g.value := by
    rw [List.filterMap_flatMap]
    induction rs with
    | nil => rfl
    | cons r rs ih =>
      rw [List.flatMap_cons, ih, filterMap_value?_updates, List.filter_cons]
      by_cases hname : r.name = application <;> simp [hname]
  rw [gaugeIn, hvalues, List.getLast?_map, lastReport?]

/-- A histogram counts every duration that it observes. -/
theorem count_foldl_observe (durations : List Nat) (h : Histogram) :
    (durations.foldl Histogram.observe h).count = h.count + durations.length := by
  induction durations generalizing h with
  | nil => rfl
  | cons ms durations ih =>
    have hobserve : (h.observe ms).count = h.count + 1 := rfl
    rw [List.foldl_cons, ih, List.length_cons, hobserve]
    omega

/-- **Recording reports leaves their tallies.** -/
theorem tallies_record : (rs.foldl record {}).Tallies rs := by
  have hm := follows_applyAll (rs.flatMap ApplicationReport.updates)
  rw [← foldl_record] at hm
  have hlength (member : String) :
      (((entriesOf rs).filter (·.name = member)).map (·.durationMs)).length =
        (HealthStatus.all.map (probeCount rs member)).sum := by
    rw [sum_probeCount, List.length_map, List.countP_eq_length_filter]
  refine ⟨hm.probes.nodup, ?_, hm.durations.nodup, ?_, ?_, hm.gauges.nodup, ?_⟩
  · intro member status n
    rw [hm.probes.mem_iff, probesIn_updates]
    cases probeCount rs member status with
    | zero => simp
    | succ k =>
      simp only [Option.some.injEq]
      omega
  · intro member
    have hsome : (∃ status, 0 < probeCount rs member status) ↔
        0 < (HealthStatus.all.map (probeCount rs member)).sum := by
      simp [List.sum_pos_iff_exists_pos_nat, HealthStatus.mem_all]
    simp only [hsome, hm.durations.mem_iff, durationsIn_updates, ← hlength]
    cases ((entriesOf rs).filter (·.name = member)).map (·.durationMs) <;> simp
  · intro member h hmem
    rw [hm.durations.mem_iff, durationsIn_updates] at hmem
    rw [← hlength]
    split at hmem
    next => simp at hmem
    next durations _ =>
      obtain rfl := Option.some.inj hmem
      rw [count_foldl_observe]
      exact Nat.zero_add _
  · intro gauge application n
    rw [hm.gauges.mem_iff, gaugeIn_updates, Option.map_eq_some_iff]
    simp only [Gauge.shows_iff, eq_comm]

end Metrics

end ServiceHealth
