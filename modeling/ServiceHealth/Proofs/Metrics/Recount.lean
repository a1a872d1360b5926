import ServiceHealth.Proofs.Metrics.Growth
import ServiceHealth.Proofs.Report.Summary
import ServiceHealth.Proofs.Server.Handler
import ServiceHealth.Proofs.Service

/-!
# Gauges counted from probes

A reported text is read three times: by the counter of probes, which looks for the first of some
names that it agrees with, by the count of healthy members, and by the status of the application.
Since a text names one status at most, the order of the names does not matter, and all three see
nothing of a text but its canonical status (`MemberStatus.getD_find?_names_eq_canonical`).
Recordings add to the counters of each status as many probes as the reports have members of it
(`Metrics.probesUnder_foldl_record`). As long as the probes of an application can be told from those
of others by their members, what its gauges are set to follows from these increases alone
(`Metrics.recounts_foldl_record`).

## Main definitions

* `Metrics.probesUnder`, `Metrics.increase` — the probes of a kind of members by status, and how
  many there are more of.
* `Gauge.ofCounts`, `Metrics.Recounts` — gauges that follow from such numbers.

## Main results

* `Metrics.gauges_recounted_from_probes` — the readings of a status, and what the metrics of a query
  show.
* `Metrics.gauges_differ_of_equal_probes` — what they do not show of applications that share a
  member.
-/

namespace ServiceHealth

open Metrics

/-! ### Counting probes -/

/-- The sum of the values whose keys are of a kind. -/
def Metrics.Series.sumOver {κ : Type} (s : Series κ Nat) (p : κ → Bool) : Nat :=
  (s.entries.map fun e => if p e.1 then e.2 else 0).sum

/-- Adding one to the value of a key adds one to the sum over a kind that it is of. -/
theorem Metrics.Series.sumOver_update {κ : Type} [DecidableEq κ] (s : Series κ Nat) (k : κ)
    (p : κ → Bool) :
    (s.update k fun n => n.getD 0 + 1).sumOver p = s.sumOver p + if p k then 1 else 0 := by
  obtain ⟨entries⟩ := s
  simp only [sumOver, update]
  induction entries with
  | nil => simp [upsert]
  | cons e es ih =>
    rw [upsert]
    by_cases hkey : e.1 = k
    · rw [if_pos hkey, ← hkey, List.map_cons, List.map_cons, List.sum_cons, List.sum_cons,
        Option.getD_some]
      split_ifs <;> omega
    · rw [if_neg hkey, List.map_cons, List.map_cons, List.sum_cons, List.sum_cons, ih,
        Nat.add_assoc]

namespace Metrics

/-- How many probes of members of a kind were counted under a status. -/
def probesUnder (m : Metrics) (ofKind : String → Bool) (s : HealthStatus) : Nat :=
  m.probes.sumOver fun key => ofKind key.1 && key.2 = s

/-- How many more probes of members of a kind are counted under each status. -/
def increase (m m' : Metrics) (ofKind : String → Bool) (s : HealthStatus) : Nat :=
  m'.probesUnder ofKind s - m.probesUnder ofKind s

/-- The member and the status under which a change counts a probe. -/
def Update.probe? : Update → Option (String × HealthStatus)
  | .probed member status => some (member, status)
  | _ => none

/-- **Step.** A change counts a probe under its member and its status alone. -/
theorem probesUnder_apply (m : Metrics) (u : Update) (ofKind : String → Bool) (s : HealthStatus) :
    (m.apply u).probesUnder ofKind s =
      m.probesUnder ofKind s + u.probe?.toList.countP fun key => ofKind key.1 && key.2 = s := by
  cases u with
  | probed member status =>
    rw [probesUnder, apply, Series.sumOver_update]
    simp [probesUnder, Update.probe?, List.countP_singleton]
  | lasted member ms => rfl
  | measured gauge application value => rfl

/-- **Run.** Several changes count the probes that are among them. -/
theorem probesUnder_applyAll (m : Metrics) (us : List Update) (ofKind : String → Bool)
    (s : HealthStatus) :
    (m.applyAll us).probesUnder ofKind s = m.probesUnder ofKind s +
      (us.filterMap Update.probe?).countP fun key => ofKind key.1 && key.2 = s := by
  induction us generalizing m with
  | nil => rfl
  | cons u us ih =>
    have hrest := ih (m.apply u)
    rw [probesUnder_apply] at hrest
    rw [applyAll, List.foldl_cons, ← applyAll, hrest, Nat.add_assoc, ← List.countP_append]
    cases hprobe : u.probe? <;> simp [hprobe]

end Metrics

/-- The changes of a report count each of its members under its canonical status. -/
theorem ApplicationReport.filterMap_probe?_updates (r : ApplicationReport) :
    r.updates.filterMap Update.probe? = r.members.map fun e => (e.name, e.status.canonical) := by
  have hgauges : r.gaugeUpdates.filterMap Update.probe? = [] := rfl
  rw [updates, List.filterMap_append, hgauges, List.append_nil]
  induction r.members with
  | nil => rfl
  | cons m ms ih =>
    rw [List.flatMap_cons, List.filterMap_append, ih]
    rfl

/-- Reports add the entries of their members to the counters. -/
theorem Metrics.probesUnder_foldl_record (m : Metrics) (rs : List ApplicationReport)
    (ofKind : String → Bool) (s : HealthStatus) :
    (rs.foldl record m).probesUnder ofKind s = m.probesUnder ofKind s +
      (entriesOf rs).countP fun e => ofKind e.name && e.status.canonical = s := by
  rw [foldl_record, probesUnder_applyAll, List.filterMap_flatMap,
    List.flatMap_congr fun r _ => r.filterMap_probe?_updates, ← List.map_flatMap, List.countP_map]
  rfl

/-- The members that are labelled with a status are those that count under it. -/
theorem ApplicationReport.count_labels (r : ApplicationReport) (s : HealthStatus) :
    (r.members.map (·.status.canonical)).count s = r.countUnder s := by
  rw [List.count_eq_countP, List.countP_map, countUnder, ServiceHealth.countUnder, List.countP_map]
  rfl

/-- The labels of the members come to the status that their texts come to. -/
theorem ApplicationReport.aggregate_labels (r : ApplicationReport) :
    aggregate ((r.members.map (·.status.canonical)).map .ofHealth) = r.status := by
  have hlabels : (r.members.map (·.status.canonical)).map MemberStatus.ofHealth =
      (r.members.map (·.status)).map fun m => MemberStatus.ofHealth m.canonical := by
    simp only [List.map_map, Function.comp_def]
  rw [hlabels, aggregate_eq_ofCounts, countUnder_map_canonical, r.status_eq]
  rfl

/-- The value of a gauge of an application of which so many members count under each status. -/
def Gauge.ofCounts (n : HealthStatus → Nat) : Gauge → Nat
  | status => (HealthStatus.ofCounts n).code
  | healthyMembers => n .healthy
  | totalMembers => (HealthStatus.all.map n).sum

/-- The value of a gauge after a report follows from the counts of the report. -/
theorem Gauge.value_eq (r : ApplicationReport) (g : Gauge) :
    g.value r = g.ofCounts r.countUnder := by
  cases g with
  | status => exact congrArg HealthStatus.code r.status_eq
  | healthyMembers => exact r.healthyCount_eq
  | totalMembers => exact r.totalCount_eq

namespace Metrics

/-- The gauges of an application show what the probes of members of a kind amount to that were
counted since. -/
def Recounts (m m' : Metrics) (ofKind : String → Bool) (application : String) : Prop :=
  ∀ g : Gauge, m'.gaugeOf? application g = some (g.ofCounts (m.increase m' ofKind))

variable {before after : List ApplicationReport} {r : ApplicationReport} {ofKind : String → Bool}

/-- The probes of a kind of members that only one of several reports has, and all of whose members
are of this kind, increase by the counts of this report. -/
theorem increase_foldl_record (m : Metrics) (hown : ∀ e ∈ r.members, ofKind e.name = true)
    (hother : ∀ d ∈ before ++ after, ∀ e ∈ d.members, ofKind e.name = false) :
    m.increase ((before ++ r :: after).foldl record m) ofKind = r.countUnder := by
  have hnone {rs : List ApplicationReport} (hrs : ∀ d ∈ rs, d ∈ before ++ after)
      (s : HealthStatus) :
      (rs.flatMap (·.members)).countP (fun e => ofKind e.name && e.status.canonical = s) = 0 := by
    rw [List.countP_eq_zero]
    intro e he
    obtain ⟨d, hd, he⟩ := List.mem_flatMap.mp he
    simp [hother d (hrs d hd) e he]
  funext s
  have hall : r.members.countP (fun e => ofKind e.name && e.status.canonical = s) =
      r.countUnder s := by
    rw [ApplicationReport.countUnder, countUnder, List.countP_map]
    refine List.countP_congr fun e he => ?_
    simp [hown e he]
  rw [increase, probesUnder_foldl_record, Nat.add_sub_cancel_left, entriesOf, List.flatMap_append,
    List.flatMap_cons, List.countP_append, List.countP_append,
    hnone fun _ => List.mem_append_left after, hnone fun _ => List.mem_append_right before, hall,
    Nat.zero_add, Nat.add_zero]

/-- The last recording of an application sets its gauges to the values of the report. -/
theorem gaugeOf?_foldl_record (m : Metrics) (hlater : ∀ d ∈ after, d.name ≠ r.name) (g : Gauge) :
    ((before ++ r :: after).foldl record m).gaugeOf? r.name g = some (g.value r) := by
  have hlast : lastReport? (before ++ r :: after) r.name = some r := by
    have hnone : after.filter (·.name = r.name) = [] := by simpa using hlater
    simp [lastReport?, hnone]
  have hgauges := (growsBy_record (before ++ r :: after) m).gauges r.name g
  rw [hlast] at hgauges
  exact hgauges

/-- A recording sets the gauges of its application to the values of the report. -/
theorem gaugeOf?_record (m : Metrics) (r : ApplicationReport) (g : Gauge) :
    (m.record r).gaugeOf? r.name g = some (g.value r) := by
  have halone : m.record r = ([] ++ r :: []).foldl record m := rfl
  rw [halone]
  exact gaugeOf?_foldl_record m (by simp) g

/-- The gauges of an application whose members are of a kind that no other report has follow from
the probes of this kind. -/
theorem recounts_foldl_record (m : Metrics) (hown : ∀ e ∈ r.members, ofKind e.name = true)
    (hother : ∀ d ∈ before ++ after, ∀ e ∈ d.members, ofKind e.name = false)
    (hlater : ∀ d ∈ after, d.name ≠ r.name) :
    m.Recounts ((before ++ r :: after).foldl record m) ofKind r.name := by
  intro g
  rw [gaugeOf?_foldl_record m hlater, increase_foldl_record m hown hother, Gauge.value_eq]

/-- After a recording the gauges of its application follow from the probes that it counted. -/
theorem recounts_record (m : Metrics) (r : ApplicationReport) :
    m.Recounts (m.record r) (fun _ => true) r.name := by
  have halone : m.record r = ([] ++ r :: []).foldl record m := rfl
  rw [halone]
  exact recounts_foldl_record m (fun _ _ => rfl) (by simp) (by simp)

end Metrics

/-! ### Queries -/

namespace Service

variable {v : Service} {probing : Probing} {clock : Nat → Timestamp} {snapshot : Settings}
  {cancelAt : Option Nat} {q : Query} {m : Metrics} {cs : List Check}

/-- A query records the reports of its checks. -/
theorem metrics_ask (hm : v.metrics = some m)
    (hcs : (v.ask probing clock snapshot cancelAt q).1 = .ok cs) :
    (v.ask probing clock snapshot cancelAt q).2.metrics =
      some ((cs.map (·.report clock)).foldl Metrics.record m) := by
  rw [ask_snd, hcs, countTasks, metrics_record, hm]
  rfl

/-- The query for a name makes one check, of an application that has the name. -/
theorem exists_check_of_get {name : String}
    (hcs : (v.ask probing clock snapshot cancelAt (.get name)).1 = .ok cs) :
    ∃ c, cs = [c] ∧ c.application = name := by
  cases hfound : snapshot.application? name with
  | none =>
    rw [ask_get_eq_error _ _ _ _ _ hfound] at hcs
    cases hcs
  | some app =>
    rw [ask_get_eq _ _ _ _ _ hfound] at hcs
    obtain rfl := Except.ok.inj hcs
    refine ⟨_, rfl, (Check.application_begin ..).trans ?_⟩
    simpa using List.find?_some hfound

/-- A query on valid settings checks each application once. -/
theorem application_ne_of_ask (hvalid : snapshot.validate = .ok ()) {before after : List Check}
    {c : Check}
    (hcs : (v.ask probing clock snapshot cancelAt q).1 = .ok (before ++ c :: after)) :
    ∀ d ∈ before ++ after, d.application ≠ c.application := by
  have hnodup : ((before ++ c :: after).map (·.application)).Nodup := by
    cases q with
    | list =>
      rw [← Except.ok.inj hcs, map_application_checkAll]
      exact (Settings.validate_eq_ok_iff.mp hvalid).2.1.2
    | get name =>
      obtain ⟨d, hd, -⟩ := exists_check_of_get hcs
      rw [hd]
      exact List.nodup_singleton _
  rw [List.map_append, List.map_cons, List.nodup_middle, List.nodup_cons, ← List.map_append]
    at hnodup
  exact fun d hd heq => hnodup.1 (heq ▸ List.mem_map_of_mem hd)

end Service

namespace Metrics

variable (clock : Nat → Timestamp) (m : Metrics) {before after : List Check} {c : Check}

/-- The gauges of an application follow from the probes of its own check. -/
theorem recounts_own_check (before : List Check) (c : Check) :
    Recounts ((before.map (·.report clock)).foldl record m)
      (((before ++ [c]).map (·.report clock)).foldl record m) (fun _ => true) c.application := by
  rw [List.map_append, List.foldl_append, ← c.report_name clock]
  exact recounts_record _ _

/-- Checks of other applications have reports with other names. -/
theorem report_name_ne (hlater : ∀ d ∈ after, d.application ≠ c.application) :
    ∀ r ∈ after.map (·.report clock), r.name ≠ (c.report clock).name := by
  simpa [Check.report_name] using hlater

/-- The gauges of an application stay as they are while others are recorded. -/
theorem gauges_after_own_check (hlater : ∀ d ∈ after, d.application ≠ c.application) (g : Gauge) :
    (((before ++ c :: after).map (·.report clock)).foldl record m).gaugeOf? c.application g =
      (((before ++ [c]).map (·.report clock)).foldl record m).gaugeOf? c.application g := by
  simp only [List.map_append, List.map_cons]
  rw [← c.report_name clock, gaugeOf?_foldl_record m (report_name_ne clock hlater),
    gaugeOf?_foldl_record m (report_name_ne clock (by simp))]

/-- The gauges of an application follow from the probes of its members if no other check has a
member in common with it. -/
theorem recounts_own_members (hlater : ∀ d ∈ after, d.application ≠ c.application)
    (hother : ∀ d ∈ before ++ after, ∀ e ∈ (d.report clock).members,
      e.name ∉ (c.report clock).members.map (·.name)) :
    m.Recounts (((before ++ c :: after).map (·.report clock)).foldl record m)
      (· ∈ (c.report clock).members.map (·.name)) c.application := by
  rw [List.map_append, List.map_cons, ← c.report_name clock]
  refine recounts_foldl_record m (fun e he => ?_) ?_ (report_name_ne clock hlater)
  · exact decide_eq_true (List.mem_map_of_mem he)
  · rw [← List.map_append, List.forall_mem_map]
    exact fun d hd e he => decide_eq_false (hother d hd e he)

end Metrics

/-- **Readings of a status agree.** A probe is counted under one label, the status that its text
names, and under unknown if it names none; whichever order the statuses are tried in, the label is
the same, for a text names one status at most. The members labelled healthy are as many as the
report counts and as its gauge shows, and the labels have the status that the texts have, which is
the one that the gauge shows. All gauges of the application therefore follow from how many probes
were counted under each status. So they do after a query for one application, from the probes of the
query. A query for several records them one after another, each of them once if the settings are
valid: the gauges of each follow from the probes of its own check and stay as they are while others
are recorded, so that they follow from the probes of the whole query as well, those of its members,
if no other application that is checked has a member in common with it. -/
theorem Metrics.gauges_recounted_from_probes (m : Metrics) (r : ApplicationReport) :
    let labels := r.members.map (·.status.canonical)
    (∀ e ∈ r.members,
      (∀ (start : Metrics) member s, (start.applyAll e.updates).counterOf member s =
        start.counterOf member s + if e.name = member ∧ e.status.canonical = s then 1 else 0) ∧
      (∀ s t, e.status.names s = true → e.status.names t = true → s = t) ∧
      ∀ order : List HealthStatus, (∀ s, s ≠ .unknown → s ∈ order) →
        (order.find? e.status.names).getD .unknown = e.status.canonical) ∧
    (labels.count .healthy = r.healthyCount ∧
      (m.record r).gaugeOf? r.name .healthyMembers = some (labels.count .healthy)) ∧
    (aggregate (labels.map .ofHealth) = aggregate (r.members.map (·.status)) ∧
      (m.record r).gaugeOf? r.name .status = some (aggregate (labels.map .ofHealth)).code) ∧
    m.Recounts (m.record r) (fun _ => true) r.name ∧
    ∀ (v : Service) (probing : Probing) (clock : Nat → Timestamp) (snapshot : Settings)
      (cancelAt : Option Nat) (q : Query) (cs : List Check), v.metrics = some m →
      (v.ask probing clock snapshot cancelAt q).1 = .ok cs →
      let recorded (cs : List Check) : Metrics := (cs.map (·.report clock)).foldl record m
      (v.ask probing clock snapshot cancelAt q).2.metrics = some (recorded cs) ∧
      (∀ name, q = .get name → m.Recounts (recorded cs) (fun _ => true) name) ∧
      ∀ before c after, cs = before ++ c :: after →
        (snapshot.validate = .ok () → ∀ d ∈ before ++ after, d.application ≠ c.application) ∧
        (recorded before).Recounts (recorded (before ++ [c])) (fun _ => true) c.application ∧
        ((∀ d ∈ after, d.application ≠ c.application) →
          (∀ g : Gauge, (recorded cs).gaugeOf? c.application g =
            (recorded (before ++ [c])).gaugeOf? c.application g) ∧
          let members := (c.report clock).members.map (·.name)
          (∀ d ∈ before ++ after, ∀ e ∈ (d.report clock).members, e.name ∉ members) →
            m.Recounts (recorded cs) (· ∈ members) c.application) := by
  intro labels
  have hhealthy : labels.count .healthy = r.healthyCount := by
    rw [r.count_labels, r.healthyCount_eq]
  have hstatus : aggregate (labels.map .ofHealth) = r.status := r.aggregate_labels
  refine ⟨fun e _ => ⟨fun start member s => ?_, fun s t => MemberStatus.names_unique,
    fun order => MemberStatus.getD_find?_names_eq_canonical⟩, ⟨hhealthy, ?_⟩, ⟨hstatus, ?_⟩,
    m.recounts_record r, ?_⟩
  · rw [counterOf_applyAll, MemberReport.updates, List.count_cons, List.count_singleton]
    simp
  · rw [hhealthy]
    exact m.gaugeOf?_record r .healthyMembers
  · rw [hstatus]
    exact m.gaugeOf?_record r .status
  · intro v probing clock snapshot cancelAt q cs hm hcs recorded
    refine ⟨Service.metrics_ask hm hcs, ?_, ?_⟩
    · rintro name rfl
      obtain ⟨c, rfl, rfl⟩ := Service.exists_check_of_get hcs
      exact recounts_own_check clock m [] c
    · rintro before c after rfl
      exact ⟨fun hvalid => Service.application_ne_of_ask hvalid hcs,
        recounts_own_check clock m before c, fun hlater =>
        ⟨gauges_after_own_check clock m hlater, recounts_own_members clock m hlater⟩⟩

/-- A text in small letters, one that says that nothing is known, and one with a letter of another
script, in a report; and three applications, two of which share a member, asked for one at a time
and together. -/
theorem Metrics.gauges_recounted_from_probes_of_three_applications :
    let member (text : String) : MemberReport := ⟨"m", "http://m", ⟨text⟩, 5, none⟩
    let r : ApplicationReport :=
      ⟨"R", default, [member "healthy", member "UNKNOWN", member "Нealthy"]⟩
    let s : Settings :=
      { healthChecks := [⟨"a", "http://a"⟩, ⟨"b", "http://b"⟩, ⟨"c", "http://c"⟩]
        applications := [⟨"X", ["a", "b"]⟩, ⟨"Y", ["b"]⟩, ⟨"Z", ["c", "c"]⟩] }
    let probing : Probing := fun _ => .timed fun name uri =>
      { delay := 3
        outcome := .report ⟨name, uri, ⟨if name = "a" then "up" else "degraded"⟩, 3, none⟩ }
    let v : Service := { settings := s, metrics := some {} }
    let clock : Nat → Timestamp := fun now => ⟨now, 0⟩
    let asked (q : Query) := v.ask probing clock s none q
    ([HealthStatus.unknown, .unreachable, .unhealthy, .degraded, .healthy].find?
      (⟨"healthy"⟩ : MemberStatus).names).getD .unknown = (⟨"healthy"⟩ : MemberStatus).canonical ∧
    r.healthyCount = 1 ∧ Recounts {} (record {} r) (fun _ => true) "R" ∧
    (∃ m', (asked (.get "Y")).2.metrics = some m' ∧ Recounts {} m' (fun _ => true) "Y") ∧
    ∃ between m', Recounts {} between (fun _ => true) "X" ∧ (asked .list).2.metrics = some m' ∧
      (∀ g, m'.gaugeOf? "X" g = between.gaugeOf? "X" g) ∧
      Recounts {} m' (· ∈ ["c", "c"]) "Z" := by
  intro member r s probing v clock asked
  obtain ⟨hlabels, ⟨hhealthy, -⟩, -, hrecorded, hqueries⟩ := gauges_recounted_from_probes {} r
  obtain ⟨hget, hgot, -⟩ := hqueries v probing clock s none (.get "Y") _ rfl (by rfl)
  let x := Check.begin probing s none 1 0 ⟨"X", ["a", "b"]⟩
  let y := Check.begin probing s none 3 3 ⟨"Y", ["b"]⟩
  let z := Check.begin probing s none 4 6 ⟨"Z", ["c", "c"]⟩
  obtain ⟨hlist, -, hchecks⟩ := hqueries v probing clock s none .list [x, y, z] rfl (by rfl)
  obtain ⟨honce, hfirst, hlater⟩ := hchecks [] x [y, z] rfl
  obtain ⟨-, -, hlast⟩ := hchecks [x, y] z [] rfl
  have hmembers : (z.report clock).members.map (·.name) = ["c", "c"] := by
    rw [Check.report_eq]
    decide
  have hother : ∀ d ∈ [x, y] ++ [], ∀ e ∈ (d.report clock).members,
      e.name ∉ (z.report clock).members.map (·.name) := by
    simp only [Check.report_eq]
    decide
  have hrecounts := (hlast (by simp)).2 hother
  simp only [hmembers] at hrecounts
  have horder := (hlabels (member "healthy") (by simp [r])).2.2
  exact ⟨horder _ fun s _ => by cases s <;> decide,
    hhealthy.symm.trans (by decide), hrecorded, ⟨_, hget, hgot "Y" rfl⟩,
    ⟨_, _, hfirst, hlist, (hlater (honce (by decide))).1, hrecounts⟩⟩

/-- What was counted of a whole query for several applications does not tell their gauges when they
share a member: here two applications share one that is healthy when it is probed first and
unhealthy when it is probed again, or the other way round. Either way the counters are the same, but
not the gauges, so nothing that is computed from the counters agrees with both. -/
theorem Metrics.gauges_differ_of_equal_probes :
    let s : Settings :=
      { healthChecks := [⟨"a", "http://a"⟩, ⟨"b", "http://b"⟩]
        applications := [⟨"X", ["a", "b"]⟩, ⟨"Y", ["b"]⟩] }
    let v : Service := { settings := s, metrics := some {} }
    let answering (first second : String) : Probing := fun task => .timed fun name uri =>
      { outcome := .report ⟨name, uri, ⟨["", "Healthy", first, second].getD task ""⟩, 0, none⟩ }
    let asked (probing : Probing) := (v.ask probing (fun _ => default) s none .list).2.metrics
    s.validate = .ok () ∧
    ∃ m m', asked (answering "Healthy" "Unhealthy") = some m ∧
      asked (answering "Unhealthy" "Healthy") = some m' ∧
      (∀ member status, m'.counterOf member status = m.counterOf member status) ∧
      (m.gaugeOf? "X" .status = some 0 ∧ m'.gaugeOf? "X" .status = some 2) ∧
      (m.gaugeOf? "X" .healthyMembers = some 2 ∧ m'.gaugeOf? "X" .healthyMembers = some 1) ∧
      ¬ ∃ recount : (String → HealthStatus → Nat) → Gauge → Option Nat,
        (∀ g, m.gaugeOf? "X" g = recount m.counterOf g) ∧
        ∀ g, m'.gaugeOf? "X" g = recount m'.counterOf g := by
  intro s v answering asked
  let reports (first second : String) : List ApplicationReport :=
    [⟨"X", default, [⟨"a", "http://a", ⟨"Healthy"⟩, 0, none⟩, ⟨"b", "http://b", ⟨first⟩, 0, none⟩]⟩,
      ⟨"Y", default, [⟨"b", "http://b", ⟨second⟩, 0, none⟩]⟩]
  have hasked (first second : String) : asked (answering first second) =
      some ((reports first second).foldl record {}) := by
    refine (Service.metrics_ask rfl (by rfl)).trans ?_
    simp only [Check.report_eq]
    rfl
  have hcounters (member : String) (status : HealthStatus) :
      ((reports "Unhealthy" "Healthy").foldl record {}).counterOf member status =
        ((reports "Healthy" "Unhealthy").foldl record {}).counterOf member status := by
    have hperm : (entriesOf (reports "Unhealthy" "Healthy")).Perm
        (entriesOf (reports "Healthy" "Unhealthy")) := .cons _ (.swap _ _ _)
    rw [(growsBy_record _ _).counters, (growsBy_record _ _).counters, probeCount, probeCount,
      hperm.countP_eq]
  refine ⟨by decide, _, _, hasked _ _, hasked _ _, hcounters, by decide +kernel, by decide +kernel,
    ?_⟩
  rintro ⟨recount, hfirst, hsecond⟩
  have hstatus := hsecond .status
  rw [funext₂ hcounters, ← hfirst .status] at hstatus
  exact absurd hstatus (by decide +kernel)

end ServiceHealth
