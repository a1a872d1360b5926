import ServiceHealth.Proofs.Check.Timeline
import ServiceHealth.Proofs.Program

/-!
# The timeout of probes

A probe over HTTP never lasts longer than the timeout of its prober, and one of a member that never
answers lasts exactly as long and says so. The prober of a run is made at its start, from the
settings of the start. A hangup that gives other settings makes them current, and queries take their
applications and their members from these, but the prober keeps its timeout. So the timeout that
settings say is kept by the checks made from them only if the settings of the start say the same,
or if every member answers in time anyway.

## Main definitions

* `Fetch.NeverEnds` — a URI that is never answered.
* `Check.KeepsTimeout` — what a timeout means for the probes of a check.

## Main results

* `Serving.probes_keep_first_timeout` — the timeout that queries keep, at every point of a run.
-/

namespace ServiceHealth

open Server

/-- What is fetched from this URI never arrives. -/
def Fetch.NeverEnds (network : Net.Network) (uri : String) : Prop :=
  (Fetch.ofUri network uri).ending = none

/-- No probe lasts longer than the timeout, and a member that never answers is reported when the
timeout has passed, with it as the duration and as the reason. -/
structure Check.KeepsTimeout (network : Net.Network) (timeoutMs : Nat) (c : Check) : Prop where
  ends : ∀ d ∈ c.probes, d.run.endsAt ≤ c.startedAt + timeoutMs
  reports : ∀ d ∈ c.probes, Fetch.NeverEnds network d.uri →
    d.run.endsAt = c.startedAt + timeoutMs ∧
    d.run.outcome =
      .report ⟨d.name, d.uri, .ofHealth .unreachable, timeoutMs, some (timeoutText timeoutMs)⟩

/-! ### Probes and checks -/

namespace Prober

variable {network : Net.Network} {timeoutMs : Nat}

/-- A race without a signal is decided when the timer fires, or before. -/
theorem fst_race_le {α : Type} (hpos : 0 < timeoutMs) (ending : Option (Nat × α)) :
    (race none timeoutMs ending).1 ≤ timeoutMs := by
  have htimer : max timeoutMs 1 = timeoutMs := Nat.max_eq_left hpos
  rcases race_cases none timeoutMs ending with ⟨c, hc, -⟩ | htimeout | ⟨e, -, hlt, hfetched⟩
  · cases hc
  · rw [htimeout]
    exact Nat.le_of_eq htimer
  · rw [hfetched]
    exact Nat.le_of_lt (htimer ▸ hlt)

/-- A probe lasts no longer than the timeout. -/
theorem endsAt_http_le (hpos : 0 < timeoutMs) (name uri : String) (start : Nat) :
    (http network timeoutMs name uri start none).endsAt ≤ start + timeoutMs :=
  Nat.add_le_add_left (fst_race_le hpos _) start

/-- A probe of a member that never answers lasts as long as the timeout, and reports it. -/
theorem http_of_neverEnds (hpos : 0 < timeoutMs) {uri : String} (h : Fetch.NeverEnds network uri)
    (name : String) (start : Nat) :
    (http network timeoutMs name uri start none).endsAt = start + timeoutMs ∧
    (http network timeoutMs name uri start none).outcome =
      .report ⟨name, uri, .ofHealth .unreachable, timeoutMs, some (timeoutText timeoutMs)⟩ := by
  have hrace : race none timeoutMs (Fetch.ofUri network uri).ending =
      (timeoutMs, .timedOut) := by
    rw [h]
    exact congrArg (·, Decision.timedOut) (Nat.max_eq_left hpos)
  simp only [http, Option.map_none, hrace, Decision.verdict, and_self]

end Prober

namespace Check

variable {network : Net.Network} {timeoutMs : Nat}

/-- The probes of a check are those of its targets. -/
theorem exists_of_mem_probes_begin {probing : Probing} {s : Settings} {cancelAt : Option Nat}
    {task now : Nat} {app : Application} {d : Dispatch}
    (hd : d ∈ (Check.begin probing s cancelAt task now app).probes) :
    ∃ number, d.run = probing number d.name d.uri now cancelAt := by
  have h := dispatched_begin probing s cancelAt task now app
  rw [probes, h.tasks] at hd
  obtain ⟨i, hi, rfl⟩ := List.getElem_of_mem hd
  exact ⟨task + i, by simp [taskOf]⟩

/-- A check over HTTP keeps the timeout of its prober. -/
theorem keepsTimeout_begin (hpos : 0 < timeoutMs) (s : Settings) (task now : Nat)
    (app : Application) :
    (Check.begin (Prober.http network timeoutMs) s none task now app).KeepsTimeout network
      timeoutMs := by
  have hstart : (Check.begin (Prober.http network timeoutMs) s none task now app).startedAt = now :=
    (dispatched_begin _ s none task now app).startedAt
  constructor
  · intro d hd
    obtain ⟨number, hrun⟩ := exists_of_mem_probes_begin hd
    rw [hrun, hstart]
    exact Prober.endsAt_http_le hpos d.name d.uri now
  · intro d hd hnever
    obtain ⟨number, hrun⟩ := exists_of_mem_probes_begin hd
    rw [hrun, hstart]
    exact Prober.http_of_neverEnds hpos hnever d.name now

/-- A check with a member that never answers keeps one timeout only. -/
theorem KeepsTimeout.eq_of_neverEnds {timeoutMs' : Nat} {c : Check}
    (h : c.KeepsTimeout network timeoutMs) (h' : c.KeepsTimeout network timeoutMs')
    {d : Dispatch} (hd : d ∈ c.probes) (hnever : Fetch.NeverEnds network d.uri) :
    timeoutMs' = timeoutMs := by
  have hends := (h.reports d hd hnever).1
  have hends' := (h'.reports d hd hnever).1
  omega

end Check

/-- Checks that keep a timeout keep another one only if it is the same, or if no probe needs it. -/
theorem Check.forall_keepsTimeout_iff {network : Net.Network} {timeoutMs timeoutMs' : Nat}
    {cs : List Check} (h : ∀ c ∈ cs, c.KeepsTimeout network timeoutMs) :
    (∀ c ∈ cs, c.KeepsTimeout network timeoutMs') ↔ timeoutMs' = timeoutMs ∨
      ∀ c ∈ cs, ∀ d ∈ c.probes, ¬ Fetch.NeverEnds network d.uri ∧
        d.run.endsAt ≤ c.startedAt + timeoutMs' := by
  constructor
  · intro h'
    by_cases hnever : ∃ c ∈ cs, ∃ d ∈ c.probes, Fetch.NeverEnds network d.uri
    · obtain ⟨c, hc, d, hd, hnever⟩ := hnever
      exact .inl ((h c hc).eq_of_neverEnds (h' c hc) hd hnever)
    · refine .inr fun c hc d hd => ⟨fun hd' => hnever ⟨c, hc, d, hd, hd'⟩, (h' c hc).ends d hd⟩
  · rintro (rfl | hquick)
    · exact h
    · exact fun c hc => ⟨fun d hd => (hquick c hc d hd).2,
        fun d hd hnever => absurd hnever (hquick c hc d hd).1⟩

/-- **Run.** Checks over HTTP keep the timeout of their prober. -/
theorem keepsTimeout_checkAll {network : Net.Network} {timeoutMs : Nat} (hpos : 0 < timeoutMs)
    (s : Settings) (task now : Nat) (apps : List Application) :
    ∀ c ∈ checkAll (Prober.http network timeoutMs) s none task now apps,
      c.KeepsTimeout network timeoutMs := by
  induction apps generalizing task now with
  | nil => exact fun _ hc => absurd hc List.not_mem_nil
  | cons app apps ih =>
    intro c hc
    rcases List.mem_cons.mp hc with rfl | hc
    · exact Check.keepsTimeout_begin hpos s task now app
    · exact ih _ _ c hc

/-- The checks of several applications have the names and the targets of these. -/
theorem map_targets_checkAll (probing : Probing) (s : Settings) (cancelAt : Option Nat)
    (task now : Nat) (apps : List Application) :
    (checkAll probing s cancelAt task now apps).map (fun c => (c.application, c.targets)) =
      apps.map fun app => (app.name, s.targets app) := by
  induction apps generalizing task now with
  | nil => rfl
  | cons app apps ih =>
    rw [checkAll, List.map_cons, List.map_cons, ih, Check.application_begin, Check.targets_begin]

/-! ### Runs -/

/-- The checks that answer a query are those of the applications that it asks for. -/
theorem Server.Handler.checks_serve (h : Handler) (v : Service) (q : Query) :
    (h.serve v q).2.1 =
      match q.applications v.settings with
      | .ok apps => checkAll h.probing v.settings none v.nextTask 0 apps
      | .error _ => [] := by
  rw [serve, Service.ask]
  cases q.applications v.settings <;> rfl

/-- What a run started with is what its file held then. -/
theorem Program.initial_eq {path : String} {content : Option ByteArray} {p : Program}
    (h : start path content = .ok p) : p.initial = p.service.settings := by
  rw [start] at h
  cases hload : Settings.load path content with
  | error e => simp [hload, bind, Except.bind] at h
  | ok s =>
    rw [hload] at h
    obtain rfl := Except.ok.inj h
    rfl

namespace Serving

variable {network : Net.Network} {clock : Nat → Timestamp} {x : Serving}

/-- **Step.** No event changes what the run started with. -/
theorem initial_react (e : Event) :
    (x.react network clock e).program.initial = x.program.initial := by
  cases e with
  | hangup content =>
    rw [react, Program.reload]
    cases Settings.load x.program.path content <;> rfl
  | request r => rfl
  | advance i =>
    rw [react, advance]
    split <;> rfl

/-- **Run.** What a run started with stays the same. -/
theorem initial_during (p : Program) (events : List Event) :
    (during network clock p events).program.initial = p.initial := by
  induction events using List.reverseRecOn with
  | nil => rfl
  | append_singleton events e ih =>
    rw [during, List.foldl_append]
    exact initial_react e |>.trans ih

/-- The step of a request that has been admitted: it is answered from the current settings. -/
theorem advance_of_admitted (network : Net.Network) (clock : Nat → Timestamp) {i : Nat} {q : Query}
    (h : x.stages[i]? = some (.admitted q)) :
    let served := (x.program.handler network clock).serve x.program.service q
    (x.advance network clock i).stages[i]? = some (.answered served.1 served.2.1) ∧
    (x.advance network clock i).looks = x.looks ++ [x.program.service.settings] := by
  intro served
  have hi : i < x.stages.length := (List.getElem?_eq_some_iff.mp h).1
  rw [advance, h]
  exact ⟨List.getElem?_set_self hi, rfl⟩

/-- **Queries keep the timeout of the start.** At every point of a run, however often the file was
loaded again, a request that has been admitted is answered from the current settings: its checks
have their applications and their targets. The timeout that they keep is always the one of the
start, and so they keep the one of the current settings just when that is the same, or when every
member answers within it. -/
theorem probes_keep_first_timeout {path : String} {content : Option ByteArray} {p : Program}
    (hstart : Program.start path content = .ok p) (network : Net.Network)
    (clock : Nat → Timestamp) (events : List Event) {i : Nat} {q : Query} :
    let x := during network clock p events
    let s := x.program.service.settings
    x.stages[i]? = some (.admitted q) →
    ∃ response checks,
      (x.react network clock (.advance i)).stages[i]? = some (.answered response checks) ∧
      (x.react network clock (.advance i)).looks = x.looks ++ [s] ∧
      (∀ apps, q.applications s = .ok apps →
        checks.map (fun c => (c.application, c.targets)) =
          apps.map fun app => (app.name, s.targets app)) ∧
      Settings.Loads path content p.initial ∧
      (∀ c ∈ checks, c.KeepsTimeout network p.initial.probe.timeoutMs.toNat) ∧
      ((∀ c ∈ checks, c.KeepsTimeout network s.probe.timeoutMs.toNat) ↔
        s.probe.timeoutMs = p.initial.probe.timeoutMs ∨
          ∀ c ∈ checks, ∀ d ∈ c.probes, ¬ Fetch.NeverEnds network d.uri ∧
            d.run.endsAt ≤ c.startedAt + s.probe.timeoutMs.toNat) := by
  intro x s hstage
  obtain ⟨hanswered, hlooks⟩ := advance_of_admitted network clock hstage
  have hinitial : Settings.Loads path content p.initial := by
    rw [Program.initial_eq hstart]
    exact (Program.start_eq_ok hstart).2
  have hpos : 0 < p.initial.probe.timeoutMs.toNat :=
    (Settings.wellFormed_of_validate hinitial.validate_eq).timeout_pos
  set served := (x.program.handler network clock).serve x.program.service q
  have hprobing : (x.program.handler network clock).probing =
      Prober.http network p.initial.probe.timeoutMs.toNat := by
    rw [Program.handler, show x.program.initial = p.initial from initial_during p events]
  have hchecks := Handler.checks_serve (x.program.handler network clock) x.program.service q
  rw [hprobing] at hchecks
  have hkept : ∀ c ∈ served.2.1, c.KeepsTimeout network p.initial.probe.timeoutMs.toNat := by
    rw [hchecks]
    cases q.applications s with
    | ok apps => exact keepsTimeout_checkAll hpos s x.program.service.nextTask 0 apps
    | error e => exact fun _ hc => absurd hc List.not_mem_nil
  refine ⟨served.1, served.2.1, hanswered, hlooks, fun apps happs => ?_, hinitial, hkept, ?_⟩
  · rw [hchecks, happs]
    exact map_targets_checkAll _ s none x.program.service.nextTask 0 apps
  · rw [Check.forall_keepsTimeout_iff hkept, UInt64.toNat_inj]

/-- A file with one member and a timeout, with arrays in the place of objects. -/
def fileOfTimeout (timeout : String) : Option ByteArray :=
  some ("[[[\"a\",\"http://a/\"]],[[\"A\",[\"a\"]]],[" ++ timeout ++ "]]").toUTF8

/-- The settings that it gives. -/
def settingsOfTimeout (timeoutMs : UInt64) : Settings :=
  { healthChecks := [⟨"a", "http://a/"⟩]
    applications := [⟨"A", ["a"]⟩]
    probe := ⟨timeoutMs⟩ }

/-- A start with a timeout of a second, and a hangup that gives a fifth of a second between the two
looks of a request at the settings. -/
theorem probes_keep_first_timeout_of_hangup :
    let s := settingsOfTimeout 1000
    let p : Program := ⟨"config.json", s, .ofSettings s false⟩
    let events : List Event := [.request ⟨.get, ⟨"/api/health/applications"⟩⟩, .advance 0,
      .hangup (fileOfTimeout "200")]
    let x := during .silent (fun _ => default) p events
    Program.start "config.json" (fileOfTimeout "1000") = .ok p ∧
    x.stages[0]? = some (.admitted .list) ∧
    x.program.service.settings = settingsOfTimeout 200 ∧
    ∃ response checks,
      (x.react .silent (fun _ => default) (.advance 0)).stages[0]? =
        some (.answered response checks) ∧
      checks.map (fun c => (c.application, c.targets)) = [("A", [("a", "http://a/")])] ∧
      ∀ c ∈ checks, c.KeepsTimeout .silent 1000 := by
  intro s p events x
  have hstart : Program.start "config.json" (fileOfTimeout "1000") = .ok p := by decide +kernel
  obtain ⟨hstage, hsettings⟩ : x.stages[0]? = some (.admitted .list) ∧
      x.program.service.settings = settingsOfTimeout 200 := by decide +kernel
  obtain ⟨response, checks, hanswered, -, htargets, -, hkept, -⟩ :=
    probes_keep_first_timeout hstart .silent (fun _ => default) events hstage
  refine ⟨hstart, hstage, hsettings, response, checks, hanswered, ?_, hkept⟩
  refine (htargets _ rfl).trans ?_
  rw [hsettings]
  decide +kernel

/-- Two requests after the hangup: settings with a timeout of a fifth of a second have long been
current when the member is still reported after a second, with the old timeout as the reason. -/
theorem old_timeout_after_hangup :
    let s := settingsOfTimeout 1000
    let p : Program := ⟨"config.json", s, .ofSettings s false⟩
    let network : Net.Network := .silent
    let request : Request := ⟨.get, ⟨"/api/health/applications"⟩⟩
    let events : List Event := [.hangup (fileOfTimeout "200"), .request request, .advance 0,
      .advance 0, .request request, .advance 1]
    let x := during network (fun _ => default) p events
    Program.start "config.json" (fileOfTimeout "1000") = .ok p ∧
    x.program.service.settings.probe.timeoutMs = 200 ∧
    x.stages[1]? = some (.admitted .list) ∧
    ∃ response checks,
      (x.react network (fun _ => default) (.advance 1)).stages[1]? =
        some (.answered response checks) ∧
      (checks.flatMap (·.probes)).map (fun d => (d.uri, d.run.outcome)) = [("http://a/",
        .report ⟨"a", "http://a/", ⟨"Unreachable"⟩, 1000, some "Timeout after 1 seconds"⟩)] ∧
      ¬ ∀ c ∈ checks, c.KeepsTimeout network 200 := by
  intro s p network request events x
  obtain ⟨hcurrent, hstage⟩ : x.program.service.settings.probe.timeoutMs = 200 ∧
      x.stages[1]? = some (.admitted .list) := by decide +kernel
  have hanswered := (advance_of_admitted network (fun _ => default) hstage).1
  set checks := ((x.program.handler network fun _ => default).serve x.program.service .list).2.1
    with hchecks
  have hprobes : (checks.flatMap (·.probes)).map (fun d => (d.uri, d.run.outcome)) =
      [("http://a/",
        .report ⟨"a", "http://a/", ⟨"Unreachable"⟩, 1000, some "Timeout after 1 seconds"⟩)] := by
    rw [hchecks, Handler.checks_serve]
    decide +kernel
  refine ⟨by decide +kernel, hcurrent, hstage, _, checks, hanswered, hprobes, fun h => ?_⟩
  obtain ⟨d, hd, hpair⟩ := List.mem_map.mp (hprobes ▸ List.mem_singleton_self _)
  obtain ⟨c, hc, hd⟩ := List.mem_flatMap.mp hd
  obtain ⟨huri, houtcome⟩ := Prod.mk.inj hpair
  have hnever : Fetch.NeverEnds network d.uri := by
    rw [huri, Fetch.NeverEnds]
    decide +kernel
  -- The check would have to report the member with both durations.
  have hreports := ((h c hc).reports d hd hnever).2
  rw [houtcome] at hreports
  exact absurd hreports (by simp)

end Serving

end ServiceHealth
