import Mathlib.Data.List.Induction
import ServiceHealth.Proofs.Check.Members
import ServiceHealth.Proofs.Metrics.Tally

/-!
# Recordings that overlap

Checks of one application may end at the same time, and then their reports are recorded by turns:
each single change is made at once, but any changes of other recordings may come between two of one.
When all recordings have ended, a gauge has the value that was set last, so it is that of some
report; but each gauge may be that of another one. The members come first in every recording, and
from then on all recordings can set one gauge in any order before they go on to the next one
(`Recordings.foldl_blocks`), so every combination of values is left by some order of the turns.

## Main definitions

* `Recordings`, `Recordings.advance`, `Recordings.during` — recordings that take turns.
* `Recordings.Finished` — the end of all of them.

## Main results

* `Recordings.gauges_of_any_reports` — what the gauges show in the end.
-/

namespace ServiceHealth

open Metrics

/-! ### Gauges -/

namespace Metrics

/-- What a gauge of an application shows, if it was ever set. -/
def gaugeOf? (m : Metrics) (application : String) (g : Gauge) : Option Nat :=
  m.gauges.get? (g, application)

/-- A change sets a gauge or leaves it. -/
theorem gaugeOf?_apply (m : Metrics) (u : Update) (application : String) (g : Gauge) :
    (m.apply u).gaugeOf? application g =
      (u.value? (g, application)).or (m.gaugeOf? application g) := by
  cases u with
  | probed member status => rfl
  | lasted member ms => rfl
  | measured gauge name value =>
    rw [Update.value?]
    by_cases hkey : (gauge, name) = (g, application)
    · rw [if_pos hkey, gaugeOf?, ← hkey]
      exact Series.get?_update_self ..
    · rw [if_neg hkey]
      exact Series.get?_update_of_ne _ (Ne.symm hkey) _

/-- Several changes leave a gauge with the value that they set last, if they set it. -/
theorem gaugeOf?_applyAll (m : Metrics) (us : List Update) (application : String) (g : Gauge) :
    (m.applyAll us).gaugeOf? application g =
      (gaugeIn us (g, application)).or (m.gaugeOf? application g) := by
  induction us using List.reverseRecOn with
  | nil => rfl
  | append_singleton us u ih =>
    rw [applyAll_append]
    show ((m.applyAll us).apply u).gaugeOf? application g = _
    rw [gaugeOf?_apply, ih, gaugeIn, gaugeIn, List.filterMap_append]
    cases hvalue : u.value? (g, application) <;> simp [hvalue]

end Metrics

/-- What a change of a report sets a gauge to is the value of the report. -/
theorem ApplicationReport.value?_eq_of_mem {r : ApplicationReport} {u : Update}
    (hu : u ∈ r.updates) {g : Gauge} {application : String} {n : Nat}
    (hn : u.value? (g, application) = some n) : n = g.value r := by
  have hmem : n ∈ r.updates.filterMap (Update.value? (g, application)) :=
    List.mem_filterMap.mpr ⟨u, hu, hn⟩
  rw [filterMap_value?_updates] at hmem
  split at hmem
  next => exact List.mem_singleton.mp hmem
  next => cases hmem

/-! ### Turns -/

/-- Recordings under way: the metrics, and the changes that each recording still has to make. -/
structure Recordings where
  metrics : Metrics
  pending : List (List Update)

namespace Recordings

/-- The reports are about to be recorded. -/
def start (m : Metrics) (rs : List ApplicationReport) : Recordings := ⟨m, rs.map (·.updates)⟩

/-- A recording makes its next change, if it has not ended. -/
def advance (x : Recordings) (i : Nat) : Recordings :=
  match x.pending[i]? with
  | some (u :: us) => ⟨x.metrics.apply u, x.pending.set i us⟩
  | _ => x

/-- The recordings of some reports take turns. -/
def during (m : Metrics) (rs : List ApplicationReport) (turns : List Nat) : Recordings :=
  turns.foldl advance (start m rs)

/-- All recordings have ended. -/
def Finished (x : Recordings) : Prop := ∀ us ∈ x.pending, us = []

instance (x : Recordings) : Decidable x.Finished :=
  inferInstanceAs (Decidable (∀ us ∈ x.pending, us = []))

variable {rs : List ApplicationReport} {x : Recordings} {g : Gauge} {application : String}

/-- No recording is added or lost. -/
theorem length_advance (x : Recordings) (i : Nat) :
    (x.advance i).pending.length = x.pending.length := by
  rw [advance]
  split
  next => exact List.length_set
  next => rfl

/-- However many turns are taken. -/
theorem length_foldl_advance (turns : List Nat) (x : Recordings) :
    (turns.foldl advance x).pending.length = x.pending.length := by
  induction turns generalizing x with
  | nil => rfl
  | cons i turns ih => rw [List.foldl_cons, ih, length_advance]

/-! ### Every gauge is that of some report -/

/-- What is true of recordings at any time: all that is still to be changed comes from the reports,
and a gauge shows the value of one of them unless every recording still has to set it. -/
structure Sound (rs : List ApplicationReport) (g : Gauge) (application : String)
    (x : Recordings) : Prop where
  origin : ∀ us ∈ x.pending, ∀ u ∈ us, ∃ r ∈ rs, u ∈ r.updates
  gauge : (∃ r ∈ rs, x.metrics.gaugeOf? application g = some (g.value r)) ∨
    ∀ us ∈ x.pending, ∃ u ∈ us, u.value? (g, application) ≠ none

/-- It is true when the reports of an application are about to be recorded. -/
theorem sound_start (m : Metrics) (happ : ∀ r ∈ rs, r.name = application) :
    Sound rs g application (start m rs) := by
  refine ⟨?_, .inr ?_⟩
  · intro us hus u hu
    obtain ⟨r, hr, rfl⟩ := List.mem_map.mp hus
    exact ⟨r, hr, hu⟩
  · intro us hus
    obtain ⟨r, hr, rfl⟩ := List.mem_map.mp hus
    have hvalue : g.value r ∈ r.updates.filterMap (Update.value? (g, application)) := by
      rw [filterMap_value?_updates, if_pos (happ r hr)]
      exact List.mem_singleton_self _
    obtain ⟨u, hu, hset⟩ := List.mem_filterMap.mp hvalue
    exact ⟨u, hu, by simp [hset]⟩

/-- **Step.** A turn keeps it true. -/
theorem Sound.advance (hx : Sound rs g application x) (i : Nat) :
    Sound rs g application (x.advance i) := by
  rw [Recordings.advance]
  split
  next u us hi =>
    have hmem : u :: us ∈ x.pending := List.mem_of_getElem? hi
    have hset : ∀ vs ∈ x.pending.set i us, vs ∈ x.pending ∨ vs = us :=
      fun vs hvs => List.mem_or_eq_of_mem_set hvs
    refine ⟨?_, ?_⟩
    · intro vs hvs v hv
      rcases hset vs hvs with hvs | rfl
      · exact hx.origin vs hvs v hv
      · exact hx.origin _ hmem v (List.mem_cons_of_mem u hv)
    · rw [gaugeOf?_apply]
      cases hvalue : u.value? (g, application) with
      | some n =>
        obtain ⟨r, hr, hu⟩ := hx.origin _ hmem u List.mem_cons_self
        exact .inl ⟨r, hr, congrArg some (ApplicationReport.value?_eq_of_mem hu hvalue)⟩
      | none =>
        rw [Option.none_or]
        refine hx.gauge.imp_right fun hall vs hvs => ?_
        rcases hset vs hvs with hvs | rfl
        · exact hall vs hvs
        · obtain ⟨v, hv, hsets⟩ := hall _ hmem
          rcases List.mem_cons.mp hv with rfl | hv
          · exact absurd hvalue hsets
          · exact ⟨v, hv, hsets⟩
  next => exact hx

/-- **Run.** It is true after any turns. -/
theorem sound_during (m : Metrics) (happ : ∀ r ∈ rs, r.name = application) (turns : List Nat) :
    Sound rs g application (during m rs turns) := by
  induction turns using List.reverseRecOn with
  | nil => exact sound_start m happ
  | append_singleton turns i ih =>
    rw [during, List.foldl_append]
    exact ih.advance i

/-- In the end a gauge shows the value of some report. -/
theorem Sound.exists_of_finished (hx : Sound rs g application x) (hpending : x.pending ≠ [])
    (hfinished : x.Finished) :
    ∃ r ∈ rs, x.metrics.gaugeOf? application g = some (g.value r) := by
  refine hx.gauge.resolve_right fun hall => ?_
  obtain ⟨us, hus⟩ := List.exists_mem_of_ne_nil _ hpending
  obtain ⟨u, hu, -⟩ := hall us hus
  rw [hfinished us hus] at hu
  cases hu

/-! ### Blocks of turns -/

/-- A recording makes several changes without an interruption. -/
theorem foldl_replicate {j : Nat} {us rest : List Update} (h : x.pending[j]? = some (us ++ rest)) :
    (List.replicate us.length j).foldl Recordings.advance x =
      ⟨x.metrics.applyAll us, x.pending.set j rest⟩ := by
  induction us generalizing x with
  | nil =>
    obtain ⟨hlt, hrest⟩ := List.getElem?_eq_some_iff.mp h
    have hset : x.pending.set j rest = x.pending := by
      rw [List.nil_append] at hrest
      rw [← hrest, List.set_getElem_self]
    rw [hset]
    rfl
  | cons u us ih =>
    have hlt : j < x.pending.length := (List.getElem?_eq_some_iff.mp h).1
    have hadvance : x.advance j = ⟨x.metrics.apply u, x.pending.set j (us ++ rest)⟩ := by
      rw [Recordings.advance, h]
      rfl
    rw [List.length_cons, List.replicate_succ, List.foldl_cons, hadvance,
      ih (List.getElem?_set_self hlt), List.set_set]
    rfl

/-- Recordings make several changes one after another, each without an interruption. -/
theorem foldl_blocks {js : List Nat} (hjs : js.Nodup) (block rest : Nat → List Update)
    (h : ∀ j ∈ js, x.pending[j]? = some (block j ++ rest j)) :
    let after := (js.flatMap fun j => List.replicate (block j).length j).foldl advance x
    after.metrics = x.metrics.applyAll (js.flatMap block) ∧
    ∀ k, after.pending[k]? = if k ∈ js then some (rest k) else x.pending[k]? := by
  induction js generalizing x with
  | nil => exact ⟨rfl, fun k => by rw [if_neg List.not_mem_nil]; rfl⟩
  | cons j js ih =>
    obtain ⟨hnew, hjs⟩ := List.nodup_cons.mp hjs
    have hj := h j List.mem_cons_self
    have hlt : j < x.pending.length := (List.getElem?_eq_some_iff.mp hj).1
    have hother : ∀ k ∈ js, (x.pending.set j (rest j))[k]? = some (block k ++ rest k) := by
      intro k hk
      have hne : j ≠ k := fun heq => hnew (heq ▸ hk)
      rw [List.getElem?_set_ne hne]
      exact h k (List.mem_cons_of_mem j hk)
    obtain ⟨hmetrics, hpending⟩ :=
      ih (x := ⟨x.metrics.applyAll (block j), x.pending.set j (rest j)⟩) hjs hother
    simp only [List.flatMap_cons, List.foldl_append, foldl_replicate hj, applyAll_append]
    refine ⟨hmetrics, fun k => ?_⟩
    rw [hpending]
    by_cases hk : k ∈ js
    · rw [if_pos hk, if_pos (List.mem_cons_of_mem j hk)]
    · rw [if_neg hk]
      by_cases hkj : k = j
      · rw [hkj, if_pos List.mem_cons_self, List.getElem?_set_self hlt]
      · rw [if_neg (by simp [hkj, hk]), List.getElem?_set_ne (Ne.symm hkj)]

/-! ### Every combination of reports -/

/-- The change of a report that sets a gauge. -/
def setting (r : ApplicationReport) (g : Gauge) : Update := .measured g r.name (g.value r)

/-- A recording ends with the gauges of its report. -/
theorem gaugeUpdates_eq (r : ApplicationReport) :
    r.gaugeUpdates = [.status, .healthyMembers, .totalMembers].map (setting r) := rfl

/-- All of `n` recordings in turn, one of them last. -/
def lastOf (n i : Nat) : List Nat := (List.range n).erase i ++ [i]

/-- Each has one turn. -/
theorem nodup_lastOf (n i : Nat) : (lastOf n i).Nodup := by
  have hrange := List.nodup_range (n := n)
  refine List.nodup_append'.mpr ⟨hrange.erase i, List.nodup_singleton i, ?_⟩
  rintro j hj hi
  rw [List.mem_singleton] at hi
  exact hrange.not_mem_erase (hi ▸ hj)

/-- Each has a turn. -/
theorem mem_lastOf {n i k : Nat} (hi : i < n) : k ∈ lastOf n i ↔ k < n := by
  rw [lastOf, List.mem_append, List.mem_singleton, List.nodup_range.mem_erase_iff, List.mem_range]
  by_cases hk : k = i <;> simp [hk, hi]

/-- Setting a gauge leaves the others. -/
theorem gaugeOf?_settings_of_ne {m : Metrics} {rs : List ApplicationReport} {g' : Gauge}
    (hg : g' ≠ g) : (m.applyAll (rs.map (setting · g))).gaugeOf? application g' =
      m.gaugeOf? application g' := by
  have hnone : (rs.map (setting · g)).filterMap (Update.value? (g', application)) = [] := by
    rw [List.filterMap_eq_nil_iff]
    intro u hu
    obtain ⟨r, -, rfl⟩ := List.mem_map.mp hu
    rw [setting, Update.value?, if_neg fun heq => hg (Prod.mk.inj heq).1.symm]
  rw [gaugeOf?_applyAll, gaugeIn, hnone]
  rfl

/-- A gauge that is set has the value of the last report. -/
theorem gaugeOf?_settings {m : Metrics} {rs : List ApplicationReport} {r : ApplicationReport} :
    (m.applyAll ((rs ++ [r]).map (setting · g))).gaugeOf? r.name g = some (g.value r) := by
  rw [List.map_append, applyAll_append]
  show (Metrics.apply _ (setting r g)).gaugeOf? r.name g = _
  rw [gaugeOf?_apply, setting, Update.value?, if_pos rfl]
  rfl

/-- Whatever some gauges still have to be set to, turns can be taken so that each of them gets the
value of a chosen report in the end, while the others stay. -/
theorem exists_turns_of_gauges (report : Nat → ApplicationReport) (chosen : Gauge → Nat)
    (happ : ∀ j, j < x.pending.length → (report j).name = application)
    (hchosen : ∀ g, chosen g < x.pending.length) (gs : List Gauge) (hgs : gs.Nodup)
    (h : ∀ j < x.pending.length, x.pending[j]? = some (gs.map (setting (report j)))) :
    ∃ turns : List Nat, (turns.foldl advance x).Finished ∧
      ∀ g, (turns.foldl advance x).metrics.gaugeOf? application g =
        if g ∈ gs then some (g.value (report (chosen g)))
        else x.metrics.gaugeOf? application g := by
  induction gs generalizing x with
  | nil =>
    refine ⟨[], fun us (hus : us ∈ x.pending) => ?_, fun g => (if_neg List.not_mem_nil).symm⟩
    obtain ⟨j, hj, rfl⟩ := List.getElem_of_mem hus
    have hjs := h j hj
    rw [List.getElem?_eq_getElem hj] at hjs
    exact Option.some.inj hjs
  | cons g gs ih =>
    obtain ⟨hnew, hgs⟩ := List.nodup_cons.mp hgs
    set js := lastOf x.pending.length (chosen g) with hjs
    have hmem (j : Nat) : j ∈ js ↔ j < x.pending.length := mem_lastOf (hchosen g)
    have hblocks : js.flatMap (fun j => [setting (report j) g]) =
        (js.map report).map (setting · g) := by
      rw [List.map_map, List.map_eq_flatMap]
      rfl
    obtain ⟨hmetrics, hpending⟩ := foldl_blocks (nodup_lastOf _ (chosen g))
      (fun j => [setting (report j) g]) (fun j => gs.map (setting (report j)))
      fun j hj => h j ((hmem j).mp hj)
    set first := js.flatMap fun j => List.replicate [setting (report j) g].length j
    have hlength : (first.foldl advance x).pending.length = x.pending.length :=
      length_foldl_advance first x
    obtain ⟨turns, hfinished, hgauges⟩ := ih (x := first.foldl advance x)
      (by rwa [hlength]) (by rwa [hlength]) hgs fun j hj => by
        rw [hpending j, if_pos ((hmem j).mpr (hlength ▸ hj))]
    refine ⟨first ++ turns, by rwa [List.foldl_append], fun g' => ?_⟩
    rw [List.foldl_append, hgauges g', hmetrics, hblocks]
    by_cases hin : g' ∈ gs
    · rw [if_pos hin, if_pos (List.mem_cons_of_mem g hin)]
    · rw [if_neg hin]
      by_cases hg : g' = g
      · rw [hg, if_pos List.mem_cons_self, hjs, lastOf, List.map_append,
          ← happ (chosen g) (hchosen g)]
        exact gaugeOf?_settings
      · rw [if_neg (by simp [hg, hin])]
        exact gaugeOf?_settings_of_ne hg

/-- The report that a recording records. -/
def reportAt (rs : List ApplicationReport) (j : Nat) : ApplicationReport := rs[j]?.getD default

/-- It is the one in its place. -/
theorem reportAt_eq {j : Nat} (hj : j < rs.length) : reportAt rs j = rs[j] := by
  rw [reportAt, List.getElem?_eq_getElem hj, Option.getD_some]

/-- All recordings record all reports. -/
theorem map_reportAt_range (rs : List ApplicationReport) :
    (List.range rs.length).map (reportAt rs) = rs := by
  refine List.ext_getElem (by simp) fun j hj hj' => ?_
  rw [List.getElem_map, List.getElem_range, reportAt_eq hj']

/-- At the start a recording has to make all changes of its report. -/
theorem getElem?_pending_start (m : Metrics) {j : Nat} (hj : j < rs.length) :
    (start m rs).pending[j]? = some (reportAt rs j).updates := by
  rw [start, List.getElem?_map, List.getElem?_eq_getElem hj, reportAt_eq hj]
  rfl

/-- There is a recording for each report at any time. -/
theorem length_pending (m : Metrics) (turns : List Nat) :
    (turns.foldl advance (start m rs)).pending.length = rs.length := by
  rw [length_foldl_advance, start, List.length_map]

/-- Turns can be taken so that each gauge has the value of a chosen report in the end. -/
theorem exists_turns_of_reports (m : Metrics) (happ : ∀ r ∈ rs, r.name = application)
    {chosen : Gauge → ApplicationReport} (hchosen : ∀ g, chosen g ∈ rs) :
    ∃ turns, (during m rs turns).Finished ∧
      ∀ g, (during m rs turns).metrics.gaugeOf? application g =
        some (g.value (chosen g)) := by
  choose place hplace hreport using fun g => List.getElem_of_mem (hchosen g)
  -- First the members of all reports are recorded, then the gauges.
  set members := (List.range rs.length).flatMap fun j =>
    List.replicate ((reportAt rs j).members.flatMap MemberReport.updates).length j
  obtain ⟨-, hpending⟩ := foldl_blocks List.nodup_range
    (fun j => (reportAt rs j).members.flatMap MemberReport.updates)
    (fun j => (reportAt rs j).gaugeUpdates)
    fun j hj => getElem?_pending_start m (List.mem_range.mp hj)
  have hlength : (members.foldl advance (start m rs)).pending.length = rs.length :=
    length_pending m members
  have hname (j : Nat) (hj : j < (members.foldl advance (start m rs)).pending.length) :
      (reportAt rs j).name = application := by
    rw [hlength] at hj
    exact reportAt_eq hj ▸ happ _ (List.getElem_mem hj)
  obtain ⟨turns, hfinished, hgauges⟩ := exists_turns_of_gauges (reportAt rs) place hname
    (fun g => hlength.symm ▸ hplace g) [.status, .healthyMembers, .totalMembers] (by decide)
    fun j hj => by rw [hpending j, if_pos (List.mem_range.mpr (hlength ▸ hj)), gaugeUpdates_eq]
  refine ⟨members ++ turns, by rwa [during, List.foldl_append], fun g => ?_⟩
  have hall : g ∈ [Gauge.status, .healthyMembers, .totalMembers] := by cases g <;> decide
  rw [during, List.foldl_append, hgauges g, if_pos hall, reportAt_eq (hplace g), hreport g]

/-- Recordings that do not overlap record one report after another. -/
theorem exists_turns_of_record (m : Metrics) (rs : List ApplicationReport) :
    ∃ turns, (during m rs turns).Finished ∧
      (during m rs turns).metrics = rs.foldl Metrics.record m := by
  have hblock : ∀ j ∈ List.range rs.length,
      (start m rs).pending[j]? = some ((reportAt rs j).updates ++ []) := fun j hj => by
    rw [List.append_nil, getElem?_pending_start m (List.mem_range.mp hj)]
  obtain ⟨hmetrics, hpending⟩ := foldl_blocks List.nodup_range (fun j => (reportAt rs j).updates)
    (fun _ => []) hblock
  refine ⟨_, fun us hus => ?_, hmetrics.trans ?_⟩
  · obtain ⟨j, hj⟩ := List.getElem?_of_mem hus
    have hlt : j < rs.length := length_pending m _ ▸ (List.getElem?_eq_some_iff.mp hj).1
    have hend := (hpending j).trans (if_pos (List.mem_range.mpr hlt))
    exact (Option.some.inj (hend.symm.trans hj)).symm
  · rw [foldl_record, ← map_reportAt_range rs, List.flatMap_map, List.length_map, List.length_range,
      map_reportAt_range]
    rfl

/-- **Gauges of overlapping recordings.** When recordings of reports of one application have taken
turns until the end, each gauge shows the value of a report, and every combination of such values
is left by some turns. So the gauges always show one and the same report just when the reports
cannot be told from their combinations, and never more healthy members than members in all just
when no report has more of the former than any other has of the latter. Recordings that do not
overlap leave the gauges of the last report. -/
theorem gauges_of_any_reports (hne : rs ≠ []) (happ : ∀ r ∈ rs, r.name = application)
    (m : Metrics) :
    (∀ value : Gauge → Nat,
      (∃ turns, (during m rs turns).Finished ∧ ∀ g,
        (during m rs turns).metrics.gaugeOf? application g = some (value g)) ↔
      ∀ g, ∃ r ∈ rs, value g = g.value r) ∧
    ((∀ turns, (during m rs turns).Finished → ∃ r ∈ rs, ∀ g,
        (during m rs turns).metrics.gaugeOf? application g = some (g.value r)) ↔
      ∀ chosen : Gauge → ApplicationReport, (∀ g, chosen g ∈ rs) →
        ∃ r ∈ rs, ∀ g : Gauge, g.value r = g.value (chosen g)) ∧
    ((∀ turns, (during m rs turns).Finished → ∃ healthy total,
        (during m rs turns).metrics.gaugeOf? application .healthyMembers = some healthy ∧
        (during m rs turns).metrics.gaugeOf? application .totalMembers = some total ∧
        healthy ≤ total) ↔
      ∀ r ∈ rs, ∀ r' ∈ rs, r.healthyCount ≤ r'.totalCount) ∧
    ∃ turns, (during m rs turns).Finished ∧
      (during m rs turns).metrics = rs.foldl Metrics.record m := by
  have hlast (turns : List Nat) (hfinished : (during m rs turns).Finished) (g : Gauge) :
      ∃ r ∈ rs, (during m rs turns).metrics.gaugeOf? application g = some (g.value r) := by
    refine (sound_during m happ turns).exists_of_finished (fun hnil => hne ?_) hfinished
    have hlength := congrArg List.length hnil
    rw [during, length_pending] at hlength
    exact List.length_eq_zero_iff.mp hlength
  refine ⟨fun value => ⟨?_, fun h => ?_⟩, ⟨fun h chosen hchosen => ?_, fun h turns hfinished => ?_⟩,
    ⟨fun h r hr r' hr' => ?_, fun h turns hfinished => ?_⟩, exists_turns_of_record m rs⟩
  · rintro ⟨turns, hfinished, hvalue⟩ g
    obtain ⟨r, hr, hshown⟩ := hlast turns hfinished g
    exact ⟨r, hr, Option.some.inj ((hvalue g).symm.trans hshown)⟩
  · choose chosen hchosen hvalue using h
    obtain ⟨turns, hfinished, hshown⟩ := exists_turns_of_reports m happ hchosen
    exact ⟨turns, hfinished, fun g => by rw [hshown g, hvalue g]⟩
  · obtain ⟨turns, hfinished, hshown⟩ := exists_turns_of_reports m happ hchosen
    obtain ⟨r, hr, hall⟩ := h turns hfinished
    exact ⟨r, hr, fun g => Option.some.inj ((hall g).symm.trans (hshown g))⟩
  · choose chosen hchosen hshown using hlast turns hfinished
    obtain ⟨r, hr, hall⟩ := h chosen hchosen
    exact ⟨r, hr, fun g => by rw [hshown g, hall g]⟩
  · -- The healthy members of one report and all members of the other can be left together.
    have hchosen : ∀ g : Gauge, (if g = .healthyMembers then r else r') ∈ rs := by
      rintro (_ | _ | _) <;> assumption
    obtain ⟨turns, hfinished, hshown⟩ := exists_turns_of_reports m happ hchosen
    obtain ⟨healthy, total, hhealthy, htotal, hle⟩ := h turns hfinished
    obtain rfl := Option.some.inj (hhealthy.symm.trans (hshown .healthyMembers))
    obtain rfl := Option.some.inj (htotal.symm.trans (hshown .totalMembers))
    exact hle
  · obtain ⟨r, hr, hhealthy⟩ := hlast turns hfinished .healthyMembers
    obtain ⟨r', hr', htotal⟩ := hlast turns hfinished .totalMembers
    exact ⟨_, _, hhealthy, htotal, h r hr r' hr'⟩

/-- Reports of two healthy members and of one: some turns leave more healthy members than members
in all. -/
theorem gauges_of_any_reports_of_two_reports :
    let entry (name : String) : MemberReport := ⟨name, "", ⟨"Healthy"⟩, 0, none⟩
    let rs : List ApplicationReport :=
      [⟨"A", default, [entry "a", entry "b"]⟩, ⟨"A", default, [entry "a"]⟩]
    rs ≠ [] ∧ (∀ r ∈ rs, r.name = "A") ∧
    ∃ turns, (during {} rs turns).Finished ∧
      (during {} rs turns).metrics.gaugeOf? "A" .status = some 0 ∧
      (during {} rs turns).metrics.gaugeOf? "A" .healthyMembers = some 2 ∧
      (during {} rs turns).metrics.gaugeOf? "A" .totalMembers = some 1 := by
  intro entry rs
  have hne : rs ≠ [] := List.cons_ne_nil _ _
  have happ : ∀ r ∈ rs, r.name = "A" := by decide
  let value (g : Gauge) : Nat := if g = .status then 0 else if g = .healthyMembers then 2 else 1
  have hvalue : ∀ g, ∃ r ∈ rs, value g = g.value r := by rintro (_ | _ | _) <;> decide
  obtain ⟨turns, hfinished, hshown⟩ := ((gauges_of_any_reports hne happ {}).1 value).mpr hvalue
  exact ⟨hne, happ, turns, hfinished, hshown .status, hshown .healthyMembers, hshown .totalMembers⟩

/-- An application loses a member between two checks of it, and their recordings overlap: in the end
the gauges show two healthy members of one. -/
theorem torn_gauges_of_two_checks :
    let settings (members : List String) : Settings :=
      { healthChecks := [⟨"a", "http://a"⟩, ⟨"b", "http://b"⟩], applications := [⟨"A", members⟩] }
    let probing : Probing := fun _ name uri start _ =>
      { endsAt := start, outcome := .report ⟨name, uri, ⟨"Healthy"⟩, 0, none⟩ }
    let report (task : Nat) (members : List String) : ApplicationReport :=
      (Check.begin probing (settings members) none task 0 ⟨"A", members⟩).report fun _ => default
    let rs := [report 1 ["a", "b"], report 3 ["a"]]
    let x := during {} rs [0, 0, 0, 0, 1, 1, 0, 1, 1, 0, 0, 1]
    x.Finished ∧ x.metrics.gaugeOf? "A" .healthyMembers = some 2 ∧
    x.metrics.gaugeOf? "A" .totalMembers = some 1 ∧
    ¬ ∃ r ∈ rs, ∀ g, x.metrics.gaugeOf? "A" g = some (g.value r) := by
  intro settings probing report rs x
  have hrs : rs = [⟨"A", default, [⟨"a", "http://a", ⟨"Healthy"⟩, 0, none⟩,
      ⟨"b", "http://b", ⟨"Healthy"⟩, 0, none⟩]⟩,
      ⟨"A", default, [⟨"a", "http://a", ⟨"Healthy"⟩, 0, none⟩]⟩] := by
    simp only [rs, report, Check.report_eq]
    decide +kernel
  have hhealthy : x.metrics.gaugeOf? "A" .healthyMembers = some 2 := by
    rw [show x = during {} rs _ from rfl, hrs]
    decide +kernel
  have htotal : x.metrics.gaugeOf? "A" .totalMembers = some 1 := by
    rw [show x = during {} rs _ from rfl, hrs]
    decide +kernel
  refine ⟨?_, hhealthy, htotal, ?_⟩
  · rw [show x = during {} rs _ from rfl, hrs]
    decide +kernel
  · rintro ⟨r, hr, hall⟩
    have hle : r.healthyCount ≤ r.totalCount := List.countP_le_length
    have hhealthy' := Option.some.inj (hhealthy.symm.trans (hall .healthyMembers))
    have htotal' := Option.some.inj (htotal.symm.trans (hall .totalMembers))
    simp only [Gauge.value] at hhealthy' htotal'
    omega

end Recordings

end ServiceHealth
