import ServiceHealth.Proofs.Check.Isolation

/-!
# Durations of probes that panic

A probe that returns reports its own duration. A probe that panics cannot, so the check measures one
in its place, but not before all of its probes have ended: what it measures is how long the check
took. So the duration of a member whose probe panicked is its own only if no probe of the check
ended later, and any other member that ends later sets it, in the report and in the histogram.

## Main definitions

* `Probing.endingAt` — the same probes, but for the end of one of them.

## Main results

* `Check.endsAt_begin_endingAt` — a probe that ends last ends the check.
* `Check.duration_of_panic_is_of_check` — the durations of members whose probes return or panic.
-/

namespace ServiceHealth

/-- The same probes, but for the end of task `k`. -/
def Probing.endingAt (probing : Probing) (k t : Nat) : Probing :=
  fun task name uri start cancelAt =>
    let run := probing task name uri start cancelAt
    if task = k then { run with endsAt := t } else run

/-- Another end of one task changes no other. -/
theorem Probing.endingAt_of_ne {probing : Probing} {k task : Nat} (t : Nat) (h : task ≠ k) :
    probing.endingAt k t task = probing task := by
  funext name uri start cancelAt
  exact if_neg h

namespace Check

variable {probing : Probing} {s : Settings} {cancelAt : Option Nat} {task now : Nat}
  {app : Application} {i : Nat} {target : String × String}

/-- The probe of a target is among the tasks of its check. -/
theorem taskOf_mem_tasks_begin (probing : Probing) (cancelAt : Option Nat) (task now : Nat)
    (htarget : (s.targets app)[i]? = some target) :
    taskOf probing cancelAt task now i target ∈
      (Check.begin probing s cancelAt task now app).tasks := by
  rw [(dispatched_begin probing s cancelAt task now app).tasks, targets_begin]
  refine List.mem_of_getElem? (i := i) ?_
  rw [List.getElem?_mapIdx, htarget]
  rfl

/-- The entry of a target is made of how its probe ended and of how long the check took. -/
theorem getElem?_members_report (probing : Probing) (cancelAt : Option Nat) (task now : Nat)
    (clock : Nat → Timestamp) (htarget : (s.targets app)[i]? = some target) :
    let c := Check.begin probing s cancelAt task now app
    (c.report clock).members[i]? = some (outcomeEntry (c.endsAt - now) (task + i) target
      (probing (task + i) target.1 target.2 now cancelAt).outcome) := by
  intro c
  have h : Dispatched probing s cancelAt task now app.members c :=
    dispatched_begin probing s cancelAt task now app
  have htargets : c.targets = s.targets app := targets_begin probing s cancelAt task now app
  rw [← htargets] at htarget
  rw [h.report_eq_masked clock]
  refine getElem?_members_masked _ htarget ?_
  rw [h.outcomes_eq, List.getElem?_mapIdx, htarget]
  rfl

/-- A check takes as long as a probe of it just when no probe ends later. -/
theorem endsAt_begin_eq_iff {t : ProbeTask}
    (ht : t ∈ (Check.begin probing s cancelAt task now app).tasks) (hstart : now ≤ t.run.endsAt) :
    (Check.begin probing s cancelAt task now app).endsAt = t.run.endsAt ↔
      ∀ t' ∈ (Check.begin probing s cancelAt task now app).tasks,
        t'.run.endsAt ≤ t.run.endsAt := by
  set c := Check.begin probing s cancelAt task now app with hc
  have hstarted : c.startedAt = now := (dispatched_begin probing s cancelAt task now app).startedAt
  obtain ⟨-, hends⟩ := endsAt_le_iff.mp c.endsAt.le_refl
  constructor
  · intro heq t' ht'
    exact heq ▸ hends t' ht'
  · intro hlast
    have hle : c.endsAt ≤ t.run.endsAt := endsAt_le_iff.mpr ⟨hstarted.symm ▸ hstart, hlast⟩
    exact Nat.le_antisymm hle (hends t ht)

/-- A probe that ends no earlier than the check did ends the check. -/
theorem endsAt_begin_endingAt {k t : Nat} (hk : k < (s.targets app).length)
    (ht : (Check.begin probing s cancelAt task now app).endsAt ≤ t) :
    (Check.begin (probing.endingAt (task + k) t) s cancelAt task now app).endsAt = t := by
  obtain ⟨hstarted, hends⟩ := endsAt_le_iff.mp ht
  have h := dispatched_begin probing s cancelAt task now app
  have h' := dispatched_begin (probing.endingAt (task + k) t) s cancelAt task now app
  have hle : (Check.begin (probing.endingAt (task + k) t) s cancelAt task now app).endsAt ≤ t := by
    refine endsAt_le_iff.mpr ⟨?_, fun p hp => ?_⟩
    · rwa [h'.startedAt, ← h.startedAt]
    · rw [h'.tasks, targets_begin] at hp
      obtain ⟨j, hj, rfl⟩ := List.mem_mapIdx.mp hp
      by_cases hjk : task + j = task + k
      · simp [taskOf, Probing.endingAt, hjk]
      · rw [taskOf, Probing.endingAt_of_ne t hjk]
        exact hends _
          (taskOf_mem_tasks_begin probing cancelAt task now (List.getElem?_eq_getElem hj))
  have hlast := taskOf_mem_tasks_begin (probing.endingAt (task + k) t) cancelAt task now
    (List.getElem?_eq_getElem hk)
  have hge := (endsAt_le_iff.mp (Nat.le_refl _)).2 _ hlast
  refine Nat.le_antisymm hle ?_
  simpa [taskOf, Probing.endingAt] using hge

/-- **The duration of a panic is that of its check.** In every check whose probes do not end before
it begins, the entry of a member whose probe returned is what it returned, and the duration of one
whose probe panicked is how long the check took. That is its own time just when no probe of the
check ended later. If any other probe ends later than the check did, the first entry stays the same
and the second has the time of the other probe as its duration, which is also what goes into the
histogram of the member. -/
theorem duration_of_panic_is_of_check
    (hstart : ∀ number name uri, now ≤ (probing number name uri now cancelAt).endsAt)
    (clock : Nat → Timestamp) (htarget : (s.targets app)[i]? = some target) :
    let c := Check.begin probing s cancelAt task now app
    let own := probing (task + i) target.1 target.2 now cancelAt
    ∃ entry, (c.report clock).members[i]? = some entry ∧
      (∀ r, own.outcome = .report r → entry = r) ∧
      (∀ message, own.outcome = .panic message →
        entry.durationMs = c.endsAt - now ∧
        (entry.durationMs = own.endsAt - now ↔ ∀ t ∈ c.tasks, t.run.endsAt ≤ own.endsAt)) ∧
      ∀ k t, k < (s.targets app).length → k ≠ i → c.endsAt ≤ t →
        let c' := Check.begin (probing.endingAt (task + k) t) s cancelAt task now app
        ∃ entry', (c'.report clock).members[i]? = some entry' ∧
          (∀ r, own.outcome = .report r → entry' = r) ∧
          (∀ message, own.outcome = .panic message → entry'.durationMs = t - now ∧
            Metrics.Update.lasted target.1 (t - now) ∈ (c'.report clock).updates) := by
  intro c own
  have hmem : taskOf probing cancelAt task now i target ∈ c.tasks :=
    taskOf_mem_tasks_begin probing cancelAt task now htarget
  refine ⟨_, getElem?_members_report probing cancelAt task now clock htarget, ?_, ?_, ?_⟩
  · intro r hr
    rw [show own.outcome = .report r from hr]
    rfl
  · intro message hpanic
    rw [show own.outcome = .panic message from hpanic]
    refine ⟨rfl, ?_⟩
    have hown : now ≤ own.endsAt := hstart (task + i) target.1 target.2
    have hle : own.endsAt ≤ c.endsAt := (endsAt_le_iff.mp (Nat.le_refl _)).2 _ hmem
    have hiff : c.endsAt = own.endsAt ↔ ∀ t ∈ c.tasks, t.run.endsAt ≤ own.endsAt :=
      endsAt_begin_eq_iff hmem hown
    rw [← hiff]
    show c.endsAt - now = own.endsAt - now ↔ _
    omega
  · intro k t hk hki ht c'
    have hother : probing.endingAt (task + k) t (task + i) = probing (task + i) :=
      Probing.endingAt_of_ne t (by omega)
    have hend : c'.endsAt = t := endsAt_begin_endingAt hk ht
    have hentry : (c'.report clock).members[i]? = some (outcomeEntry (c'.endsAt - now) (task + i)
        target (probing.endingAt (task + k) t (task + i) target.1 target.2 now cancelAt).outcome) :=
      getElem?_members_report (probing.endingAt (task + k) t) cancelAt task now clock htarget
    rw [hother, hend] at hentry
    refine ⟨_, hentry, ?_, ?_⟩
    · intro r hr
      rw [show own.outcome = .report r from hr]
      rfl
    · intro message hpanic
      rw [show (probing (task + i) target.1 target.2 now cancelAt).outcome = .panic message from
        hpanic] at hentry ⊢
      have hmember := List.mem_of_getElem? hentry
      refine ⟨rfl, List.mem_append_left _ (List.mem_flatMap.mpr ⟨_, hmember, ?_⟩)⟩
      exact List.mem_cons_of_mem _ (List.mem_singleton_self _)

/-- Two members of an application. -/
def twoMembers : Settings :=
  { healthChecks := [⟨"boom", "http://boom/"⟩, ⟨"slow", "http://slow/"⟩] }

/-- The probe of one of them panics after 20 milliseconds, that of the other one returns after a
delay. -/
def panicBeside (delay : Nat) : Probing := fun _ => .timed fun name uri =>
  if name = "boom" then { delay := 20, outcome := .panic none }
  else { delay, outcome := .report ⟨name, uri, ⟨"Healthy"⟩, delay, none⟩ }

/-- The check of both of them. -/
def besideSlow (delay : Nat) : Check :=
  Check.begin (panicBeside delay) twoMembers none 0 0 ⟨"App", ["boom", "slow"]⟩

/-- The probe that panics ends last beside one that takes 10 milliseconds, and its duration is its
own; it is that of the other probe when this one takes five seconds. -/
theorem duration_of_panic_is_of_check_of_two_members :
    let c := besideSlow 10
    let c' := Check.begin ((panicBeside 10).endingAt 1 5000) twoMembers none 0 0
      ⟨"App", ["boom", "slow"]⟩
    (∃ entry, (c.report fun _ => default).members[0]? = some entry ∧ entry.durationMs = 20) ∧
    ∃ entry, (c'.report fun _ => default).members[0]? = some entry ∧ entry.durationMs = 5000 ∧
      Metrics.Update.lasted "boom" 5000 ∈ (c'.report fun _ => default).updates := by
  intro c c'
  have hstart : ∀ number name uri, 0 ≤ (panicBeside 10 number name uri 0 none).endsAt :=
    fun _ _ _ => Nat.zero_le _
  have htarget : (twoMembers.targets ⟨"App", ["boom", "slow"]⟩)[0]? =
      some ("boom", "http://boom/") := by decide +kernel
  have hpanics : (panicBeside 10 0 "boom" "http://boom/" 0 none).outcome = .panic none := by decide
  obtain ⟨entry, hentry, -, hpanic, hsibling⟩ :=
    @duration_of_panic_is_of_check (panicBeside 10) twoMembers none 0 0 ⟨"App", ["boom", "slow"]⟩ 0
      ("boom", "http://boom/") hstart (fun _ => default) htarget
  obtain ⟨-, hown⟩ := hpanic none hpanics
  obtain ⟨entry', hentry', -, hslower⟩ :=
    hsibling 1 5000 (by decide +kernel) (by decide) (by decide +kernel)
  obtain ⟨hduration, hobserved⟩ := hslower none hpanics
  exact ⟨⟨entry, hentry, hown.mpr (by decide +kernel)⟩, entry', hentry', hduration, hobserved⟩

/-- The probe that panics runs alike beside a fast member and beside a slow one, but is reported and
observed with another duration. -/
theorem duration_of_panic_changes_with_sibling :
    let report delay := (besideSlow delay).report fun _ => default
    let observed delay := (Metrics.record {} (report delay)).durations.get? "boom"
    (besideSlow 10).tasks[0]? = (besideSlow 5000).tasks[0]? ∧
    ((besideSlow 5000).tasks.map (·.run.endsAt))[0]? = some 20 ∧
    (report 10).members.map (·.durationMs) = [20, 10] ∧
    (report 5000).members.map (·.durationMs) = [5000, 5000] ∧
    observed 10 = some (Histogram.empty.observe 20) ∧
    observed 5000 = some (Histogram.empty.observe 5000) ∧ observed 10 ≠ observed 5000 := by
  simp only [report_eq]
  decide +kernel

end Check

end ServiceHealth
