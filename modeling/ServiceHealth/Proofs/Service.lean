import ServiceHealth.Service

/-!
# The service after checks

Recording checks changes nothing but the metrics, and counting their tasks nothing but the number of
the next one. A query does both, with the checks that answer it.

## Main results

* `Service.metrics_record` — recording checks records their reports.
* `Service.ask_snd` — what a query leaves.
-/

namespace ServiceHealth.Service

/-- No checks leave nothing. -/
theorem record_nil (v : Service) (clock : Nat → Timestamp) : v.record clock [] = v := by
  obtain ⟨settings, metrics, nextTask⟩ := v
  cases metrics <;> rfl

/-- Recording checks records their reports. -/
theorem metrics_record (v : Service) (clock : Nat → Timestamp) (cs : List Check) :
    (v.record clock cs).metrics =
      v.metrics.map fun m => (cs.map (·.report clock)).foldl Metrics.record m := by
  simp only [record, List.foldl_map]

/-- Recording one more check after others. -/
theorem metrics_record_append (clock : Nat → Timestamp) {v w : Service} {cs : List Check}
    (hw : w.metrics = (v.record clock cs).metrics) (c : Check) :
    (w.record clock [c]).metrics = (v.record clock (cs ++ [c])).metrics := by
  simp only [record, hw, Option.map_map, List.foldl_append]
  rfl

/-- The next task after one more check. -/
theorem nextTask_countTasks_append (v : Service) (cs : List Check) (c : Check) :
    (v.countTasks (cs ++ [c])).nextTask = (v.countTasks cs).nextTask + c.tasks.length := by
  simp [countTasks]

/-- Services that differ at most in their settings. -/
theorem eq_swap_settings {v v' : Service} (hmetrics : v.metrics = v'.metrics)
    (hnext : v.nextTask = v'.nextTask) : v = v'.swap v.settings := by
  obtain ⟨settings, metrics, nextTask⟩ := v
  obtain ⟨settings', metrics', nextTask'⟩ := v'
  obtain rfl : metrics = metrics' := hmetrics
  obtain rfl : nextTask = nextTask' := hnext
  rfl

variable (v : Service) (probing : Probing) (clock : Nat → Timestamp) (snapshot : Settings)
  (cancelAt : Option Nat) (q : Query)

/-- A query leaves what recording and counting its checks leaves. -/
theorem ask_snd :
    let asked := v.ask probing clock snapshot cancelAt q
    asked.2 = (v.record clock (asked.1.toOption.getD [])).countTasks
      (asked.1.toOption.getD []) := by
  simp only [ask]
  cases q.applications snapshot with
  | error e => exact (v.record_nil clock).symm
  | ok apps => rfl

/-- A query keeps the settings. -/
theorem settings_ask : (v.ask probing clock snapshot cancelAt q).2.settings = v.settings := by
  rw [ask_snd]
  rfl

end ServiceHealth.Service
