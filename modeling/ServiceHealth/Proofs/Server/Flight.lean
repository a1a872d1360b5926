import Mathlib.Data.List.Forall2
import ServiceHealth.Proofs.Cancel
import ServiceHealth.Proofs.Check.Timeline
import ServiceHealth.Proofs.Server.Handler
import ServiceHealth.Proofs.Service

/-!
# Requests poll by poll

A request and its probes are tasks that have their turns in any order. The request holds the handle
of a signal from its first turn to its answer; it dispatches the probes of one application, and
when all of them have ended it records the check and goes on to the next one. A probe looks at
the signal first whenever it has a turn, and only then does whatever it does. Between any two turns
other settings may be stored, or the request may be dropped, and its handle with it; the probes
that it leaves behind still have their turns.

`Flight.Sound` says how far a request has come in all of this and what its probes have seen,
`Flight.Sound.react` that one event keeps it, and `Flight.sound_during` that it therefore holds at
every point.

## Main definitions

* `FlyingProbe`, `Turn`, `FlyingProbe.turn` — a probe and one turn of it.
* `Flight`, `Flight.Event`, `Flight.react`, `Flight.during` — a request and its probes, what happens
  to them, and all that happens from the start of the request.
* `IsCheckOf`, `FlyingProbe.Undisturbed`, `Flight.Reached`, `Flight.Sound` — the invariant.

## Main results

* `Flight.sound_during` — the invariant holds at every point.
-/

namespace ServiceHealth.Server

/-! ### Probes -/

/-- A probe that was dispatched: its task and its target, whether it has had a turn, where it waits
for its signal, the URLs that it has asked, and its run once it has ended. -/
structure FlyingProbe where
  number : Nat
  target : String × String
  started : Bool := false
  phase : Phase := .reading
  asked : List Net.Url := []
  run : Option Run := none

/-- What a probe would do in a turn: the moment, the duration that it would report if it were
cancelled, and otherwise the URLs that it asks and how it ends, if it does. -/
structure Turn where
  now : Nat
  elapsedMs : Nat := 0
  asks : List Net.Url := []
  ends : Option Outcome := none

namespace FlyingProbe

/-- The run of a probe that sees its signal fire. -/
def cancelledRun (p : FlyingProbe) (t : Turn) : Run :=
  { endsAt := t.now
    outcome := .report (.unreachable p.target.1 p.target.2 t.elapsedMs cancelledPayload)
    cancelled := true
    asked := p.asked }

/-- A probe that sees its signal fire ends, and asks nothing more. -/
def stop (p : FlyingProbe) (t : Turn) : FlyingProbe :=
  { p with started := true, phase := .ended, run := some (p.cancelledRun t) }

/-- A turn of a probe: it waits for its signal as far as it can, and goes on only if that has not
fired. -/
def turn (channel : Channel) (t : Turn) (p : FlyingProbe) : FlyingProbe :=
  match p.run with
  | some _ => p
  | none =>
    match p.phase.run channel 4 with
    | .ended => p.stop t
    | phase =>
      { p with
        started := true, phase
        asked := p.asked ++ t.asks
        run := t.ends.map fun o => { endsAt := t.now, outcome := o, asked := p.asked ++ t.asks } }

/-- The task of a probe that has ended. -/
def task? (p : FlyingProbe) : Option ProbeTask := p.run.map (⟨p.number, ·⟩)

/-- A probe that has not seen its signal fire, and has asked nothing before its first turn. -/
structure Undisturbed (p : FlyingProbe) : Prop where
  phase : p.phase ≠ .ended
  run : ∀ run ∈ p.run, run.cancelled = false
  asked : p.started = false → p.asked = [] ∧ p.run = none

/-- A probe that has just been dispatched has seen nothing. -/
theorem undisturbed_dispatched (number : Nat) (target : String × String) :
    Undisturbed { number, target } where
  phase := by simp
  run := by simp
  asked _ := ⟨rfl, rfl⟩

variable {p : FlyingProbe} {t : Turn} {c : Channel}

/-- A probe that has ended does nothing in its turns. -/
theorem turn_of_isSome (h : p.run.isSome = true) : p.turn c t = p := by
  rw [turn]
  cases hrun : p.run with
  | none => simp [hrun] at h
  | some run => rfl

/-- A probe keeps its target. -/
theorem target_turn : (p.turn c t).target = p.target := by
  rw [turn]
  split
  · rfl
  · split <;> rfl

/-- A turn while the signal has not fired: the probe goes on. -/
theorem turn_of_quiet (hp : p.phase ≠ .ended) (hrun : p.run = none) :
    p.turn {} t = { p with
      started := true, phase := .waiting 0
      asked := p.asked ++ t.asks
      run := t.ends.map fun o =>
        { endsAt := t.now, outcome := o, asked := p.asked ++ t.asks } } := by
  simp only [turn, hrun, Phase.run_of_quiet (c := {}) rfl rfl hp]

/-- A turn after the handle was dropped: a probe that has not ended stops. -/
theorem turn_of_closed (c : Channel) (hrun : p.run = none) : p.turn c.close t = p.stop t := by
  simp only [turn, hrun, Phase.run_of_closed (c := c.close) rfl rfl p.phase]

/-- A turn keeps a probe undisturbed if the signal has not fired or the probe has ended. -/
theorem Undisturbed.turn (h : p.Undisturbed) (hquiet : c = {} ∨ p.run.isSome = true) (t : Turn) :
    (p.turn c t).Undisturbed := by
  cases hrun : p.run with
  | some run => rwa [turn_of_isSome (by simp [hrun])]
  | none =>
    rcases hquiet with rfl | hsome
    · rw [turn_of_quiet h.phase hrun]
      refine ⟨by simp, ?_, by simp⟩
      intro run hmem
      obtain ⟨o, -, rfl⟩ := Option.map_eq_some_iff.mp hmem
      rfl
    · simp [hrun] at hsome

end FlyingProbe

/-! ### Requests -/

/-- Where a request stands. While it checks, it holds its query and its snapshot, the application
that is checked since a moment, and those that follow. -/
inductive Standing
  | received (r : Request)
  | admitted (q : Query)
  | checking (q : Query) (s : Settings) (app : Application) (startedAt : Nat)
    (rest : List Application)
  | answered (response : Response)
  | dropped

/-- The request has neither been answered nor dropped. -/
def Standing.isUnderWay : Standing → Bool
  | .answered _ | .dropped => false
  | _ => true

/-- A request and its probes: the service, where the request stands, the channel of its handle, the
checks that it has recorded, and the probes that it dispatched last. -/
structure Flight where
  service : Service
  standing : Standing
  channel : Channel := {}
  finished : List Check := []
  probes : List FlyingProbe := []

namespace Flight

/-- What happens: the request or one of its probes has a turn, other settings are stored, or the
request is dropped. -/
inductive Event
  | advance (now : Nat)
  | turn (i : Nat) (t : Turn)
  | store (s : Settings)
  | drop

/-- A request at its start. -/
def start (v : Service) (r : Request) : Flight := { service := v, standing := .received r }

/-- The probes of the resolved members of an application are dispatched. -/
def dispatch (f : Flight) (s : Settings) (app : Application) : List FlyingProbe :=
  (s.targets app).mapIdx fun i target => { number := f.service.nextTask + i, target }

/-- The request goes on to the next application, or it is answered and its handle dropped. -/
def goOn (f : Flight) (h : Handler) (q : Query) (s : Settings) (now : Nat) :
    List Application → Flight
  | [] =>
    { f with
      standing := .answered (respond h.clock q (.ok f.finished))
      channel := f.channel.close }
  | app :: rest =>
    { f with
      standing := .checking q s app now rest
      probes := f.dispatch s app
      service := { f.service with nextTask := f.service.nextTask + (s.targets app).length } }

/-- A turn of the request. -/
def advance (f : Flight) (h : Handler) (now : Nat) : Flight :=
  match f.standing with
  | .received r =>
    match gate h.basePath f.service.settings r with
    | .error response => { f with standing := .answered response, channel := f.channel.close }
    | .ok q => { f with standing := .admitted q }
  | .admitted q =>
    match q.applications f.service.settings with
    | .error e =>
      { f with standing := .answered (respond h.clock q (.error e)), channel := f.channel.close }
    | .ok apps => f.goOn h q f.service.settings now apps
  | .checking q s app startedAt rest =>
    match f.probes.mapM FlyingProbe.task? with
    | none => f
    | some tasks =>
      let c : Check := ⟨app.name, startedAt, f.probes.map (·.target), tasks⟩
      { f with finished := f.finished ++ [c], service := f.service.record h.clock [c] }.goOn
        h q s now rest
  | .answered _ | .dropped => f

/-- The request is dropped, and its handle with it, unless it has been answered. -/
def abandon (f : Flight) : Flight :=
  if f.standing.isUnderWay then { f with standing := .dropped, channel := f.channel.close } else f

/-- One event. -/
def react (h : Handler) (f : Flight) : Event → Flight
  | .advance now => f.advance h now
  | .turn i t => { f with probes := f.probes.modify i (·.turn f.channel t) }
  | .store s => { f with service := f.service.swap s }
  | .drop => f.abandon

/-- All that happens from the start of a request. -/
def during (h : Handler) (v : Service) (r : Request) (events : List Event) : Flight :=
  events.foldl (react h) (start v r)

/-- Events after events. -/
theorem during_append (h : Handler) (v : Service) (r : Request) (events events' : List Event) :
    during h v r (events ++ events') = events'.foldl (react h) (during h v r events) :=
  List.foldl_append

/-- The settings that an event stores. -/
def Event.stored : Event → List Settings
  | .store s => [s]
  | _ => []

/-! ### The invariant -/

/-- A check of an application that has ended: each resolved member has the run of its task, and
none of them saw the signal fire. -/
structure IsCheckOf (s : Settings) (app : Application) (c : Check) : Prop where
  application : c.application = app.name
  targets : c.targets = s.targets app
  tasks : c.tasks.length = c.targets.length
  undisturbed : ∀ t ∈ c.tasks, t.run.cancelled = false

/-- The request asks this query, and these are its applications in a snapshot that was current. -/
structure Asks (h : Handler) (r : Request) (seen : List Settings) (q : Query) (s : Settings)
    (apps : List Application) : Prop where
  admitted : ∃ first ∈ seen, gate h.basePath first r = .ok q
  snapshot : s ∈ seen
  applications : q.applications s = .ok apps

/-- How far a request has come: where it stands, the targets of the probes that it dispatched last,
and the checks that it has recorded. These are checks of the first ones of its applications. -/
inductive Reached (h : Handler) (r : Request) (seen : List Settings) :
    Standing → List (String × String) → List Check → Prop
  | received : Reached h r seen (.received r) [] []
  | refused {response} : Reached h r seen (.answered response) [] []
  | admitted {q first} : first ∈ seen → gate h.basePath first r = .ok q →
      Reached h r seen (.admitted q) [] []
  | checking {q s app startedAt rest done cs} : Asks h r seen q s (done ++ app :: rest) →
      List.Forall₂ (IsCheckOf s) done cs →
      Reached h r seen (.checking q s app startedAt rest) (s.targets app) cs
  | answered {q s apps cs targets} : Asks h r seen q s apps → List.Forall₂ (IsCheckOf s) apps cs →
      Reached h r seen (.answered (respond h.clock q (.ok cs))) targets cs
  | dropped {standing targets cs} : Reached h r seen standing targets cs →
      Reached h r seen .dropped targets cs

/-- What is true of a request that started with a service, when some settings have been current.
The metrics are those that its recorded checks leave. Nothing is sent while it is under way, and
when it is answered all its probes have ended; so unless it was dropped, no probe has seen its
signal fire. -/
structure Sound (h : Handler) (v : Service) (r : Request) (seen : List Settings) (f : Flight) :
    Prop where
  current : f.service.settings ∈ seen
  reached : Reached h r seen f.standing (f.probes.map (·.target)) f.finished
  metrics : f.service.metrics = (v.record h.clock f.finished).metrics
  probes : f.standing ≠ .dropped → ∀ p ∈ f.probes, p.Undisturbed
  channel : f.standing.isUnderWay = true → f.channel = {}
  ended : ∀ response, f.standing = .answered response → ∀ p ∈ f.probes, p.run.isSome = true

variable {h : Handler} {v : Service} {r : Request} {seen : List Settings} {f : Flight}

/-- More settings may have been current. -/
theorem Asks.mono {q : Query} {s : Settings} {apps : List Application}
    (hasks : Asks h r seen q s apps) (more : List Settings) :
    Asks h r (seen ++ more) q s apps := by
  obtain ⟨⟨first, hfirst, hgate⟩, hsnapshot, happs⟩ := hasks
  exact ⟨⟨first, List.mem_append_left _ hfirst, hgate⟩, List.mem_append_left _ hsnapshot, happs⟩

/-- More settings may have been current. -/
theorem Reached.mono {standing : Standing} {targets : List (String × String)} {cs : List Check}
    (hreached : Reached h r seen standing targets cs) (more : List Settings) :
    Reached h r (seen ++ more) standing targets cs := by
  induction hreached with
  | received => exact .received
  | refused => exact .refused
  | admitted hfirst hgate => exact .admitted (List.mem_append_left _ hfirst) hgate
  | checking hasks hchecks => exact .checking (hasks.mono more) hchecks
  | answered hasks hchecks => exact .answered (hasks.mono more) hchecks
  | dropped _ ih => exact .dropped ih

/-- A request at its start has seen nothing but the settings of the service. -/
theorem sound_start (h : Handler) (v : Service) (r : Request) :
    Sound h v r [v.settings] (start v r) where
  current := List.mem_singleton_self _
  reached := .received
  metrics := congrArg Service.metrics (v.record_nil h.clock).symm
  probes _ := by simp [start]
  channel _ := rfl
  ended := by simp [start]

/-- Probes that have been dispatched are undisturbed, and their targets are the resolved members. -/
theorem undisturbed_dispatch (f : Flight) (s : Settings) (app : Application) :
    (∀ p ∈ f.dispatch s app, p.Undisturbed) ∧
      (f.dispatch s app).map (·.target) = s.targets app := by
  constructor
  · intro p hp
    obtain ⟨i, hi, rfl⟩ := List.mem_mapIdx.mp hp
    exact FlyingProbe.undisturbed_dispatched _ _
  · refine List.ext_getElem (by simp [dispatch]) fun i hi hi' => ?_
    simp [dispatch]

/-- Going on to the next application keeps what is true of a request, and so does its answer
if all probes have ended. -/
theorem sound_goOn {q : Query} {s : Settings} {done apps : List Application} (now : Nat)
    (hcurrent : f.service.settings ∈ seen) (hasks : Asks h r seen q s (done ++ apps))
    (hchecks : List.Forall₂ (IsCheckOf s) done f.finished)
    (hmetrics : f.service.metrics = (v.record h.clock f.finished).metrics)
    (hchannel : f.channel = {})
    (hprobes : ∀ p ∈ f.probes, p.Undisturbed ∧ p.run.isSome = true) :
    Sound h v r seen (f.goOn h q s now apps) := by
  cases apps with
  | nil =>
    rw [List.append_nil] at hasks
    exact ⟨hcurrent, .answered hasks hchecks, hmetrics, fun _ p hp => (hprobes p hp).1,
      by simp [goOn, Standing.isUnderWay], fun _ _ p hp => (hprobes p hp).2⟩
  | cons app rest =>
    obtain ⟨hundisturbed, htargets⟩ := f.undisturbed_dispatch s app
    refine ⟨hcurrent, ?_, hmetrics, fun _ => hundisturbed, fun _ => hchannel, by simp [goOn]⟩
    show Reached h r seen _ ((f.dispatch s app).map (·.target)) f.finished
    rw [htargets]
    exact .checking hasks hchecks

/-- The tasks of probes are there when each of them has ended. -/
theorem mapM_task?_eq_some_iff {probes : List FlyingProbe} {tasks : List ProbeTask} :
    probes.mapM FlyingProbe.task? = some tasks ↔
      probes.map FlyingProbe.task? = tasks.map some := by
  induction probes generalizing tasks with
  | nil => cases tasks <;> simp
  | cons p probes ih =>
    rw [List.mapM_cons, List.map_cons]
    cases tasks with
    | nil => cases p.task? <;> simp [Option.bind_eq_some_iff]
    | cons t tasks => simp [Option.bind_eq_some_iff, ih, and_comm]

/-- Probes that have all ended give the check of their application. -/
theorem isCheckOf_probes {s : Settings} {app : Application} {tasks : List ProbeTask}
    (startedAt : Nat) {probes : List FlyingProbe}
    (htargets : probes.map (·.target) = s.targets app)
    (htasks : probes.mapM FlyingProbe.task? = some tasks)
    (hprobes : ∀ p ∈ probes, p.Undisturbed) :
    IsCheckOf s app ⟨app.name, startedAt, probes.map (·.target), tasks⟩ := by
  rw [mapM_task?_eq_some_iff] at htasks
  refine ⟨rfl, htargets, ?_, fun t ht => ?_⟩
  · have hlength := congrArg List.length htasks
    simpa using hlength.symm
  · have hmem : some t ∈ probes.map FlyingProbe.task? := htasks ▸ List.mem_map_of_mem ht
    obtain ⟨p, hp, htask⟩ := List.mem_map.mp hmem
    obtain ⟨run, hrun, rfl⟩ := Option.map_eq_some_iff.mp htask
    exact (hprobes p hp).run run hrun

/-- Probes whose tasks are there have ended. -/
theorem isSome_run_of_mapM_task? {probes : List FlyingProbe} {tasks : List ProbeTask}
    (htasks : probes.mapM FlyingProbe.task? = some tasks) :
    ∀ p ∈ probes, p.run.isSome = true := by
  rw [mapM_task?_eq_some_iff] at htasks
  intro p hp
  have hmem : p.task? ∈ tasks.map some := htasks ▸ List.mem_map_of_mem hp
  obtain ⟨t, -, htask⟩ := List.mem_map.mp hmem
  obtain ⟨run, hrun, -⟩ := Option.map_eq_some_iff.mp htask.symm
  rw [hrun, Option.isSome_some]

/-- A turn of the request keeps what is true of it. -/
theorem Sound.advance (hf : Sound h v r seen f) (now : Nat) :
    Sound h v r seen (f.advance h now) := by
  obtain ⟨service, standing, channel, finished, probes⟩ := f
  have hsound := hf
  obtain ⟨hcurrent, hreached, hmetrics, hprobes, hchannel, hended⟩ := hf
  simp only at hcurrent hreached hmetrics hprobes hchannel hended
  generalize htargets : probes.map (·.target) = targets at hreached
  cases hreached with
  | received =>
    obtain rfl := List.map_eq_nil_iff.mp htargets
    simp only [Flight.advance]
    split
    next response hgate =>
      exact ⟨hcurrent, .refused, hmetrics, by simp, by simp [Standing.isUnderWay], by simp⟩
    next q hgate =>
      exact ⟨hcurrent, .admitted hcurrent hgate, hmetrics, by simp, fun _ => hchannel rfl, by simp⟩
  | @admitted q first hfirst hgate =>
    obtain rfl := List.map_eq_nil_iff.mp htargets
    simp only [Flight.advance]
    split
    next e happs =>
      exact ⟨hcurrent, .refused, hmetrics, by simp, by simp [Standing.isUnderWay], by simp⟩
    next apps happs =>
      have hasks : Asks h r seen q service.settings ([] ++ apps) :=
        ⟨⟨first, hfirst, hgate⟩, hcurrent, happs⟩
      exact sound_goOn now hcurrent hasks .nil hmetrics (hchannel rfl) (by simp)
  | @checking q s app startedAt rest done cs hasks hchecks =>
    simp only [Flight.advance]
    split
    next => exact hsound
    next tasks htasks =>
      have hundisturbed := hprobes (by simp)
      have hcheck := isCheckOf_probes startedAt htargets htasks hundisturbed
      have hended := isSome_run_of_mapM_task? htasks
      have hasks' : Asks h r seen q s (done ++ [app] ++ rest) := by rwa [List.append_assoc]
      refine sound_goOn now hcurrent hasks' ?_ ?_ (hchannel rfl)
        fun p hp => ⟨hundisturbed p hp, hended p hp⟩
      · exact List.rel_append hchecks (.cons hcheck .nil)
      · exact Service.metrics_record_append h.clock hmetrics _
  | refused => exact hsound
  | answered => exact hsound
  | dropped => exact hsound

/-- The probes after a turn of one of them are those before, or that one after its turn. -/
theorem mem_modify_turn {probes : List FlyingProbe} {c : Channel} {i : Nat} {t : Turn}
    {p : FlyingProbe} (hp : p ∈ probes.modify i (·.turn c t)) :
    p ∈ probes ∨ ∃ p' ∈ probes, p = p'.turn c t := by
  obtain ⟨j, hj⟩ := List.mem_iff_getElem?.mp hp
  rw [List.getElem?_modify] at hj
  obtain ⟨p', hp', rfl⟩ := Option.map_eq_some_iff.mp hj
  have hmem := List.mem_iff_getElem?.mpr ⟨j, hp'⟩
  split
  · exact .inr ⟨p', hmem, rfl⟩
  · exact .inl hmem

/-- A turn of a probe changes no target. -/
theorem map_target_modify_turn (probes : List FlyingProbe) (c : Channel) (i : Nat) (t : Turn) :
    (probes.modify i (·.turn c t)).map (·.target) = probes.map (·.target) := by
  refine List.ext_getElem? fun j => ?_
  rw [List.getElem?_map, List.getElem?_map, List.getElem?_modify]
  cases probes[j]? with
  | none => rfl
  | some p =>
    by_cases hj : i = j
    · simp [hj, FlyingProbe.target_turn]
    · simp [hj]

/-- A turn of a probe keeps what is true of the request. -/
theorem Sound.turn (hf : Sound h v r seen f) (i : Nat) (t : Turn) :
    Sound h v r seen (f.react h (.turn i t)) where
  current := hf.current
  reached := by
    show Reached h r seen f.standing ((f.probes.modify i (·.turn f.channel t)).map (·.target)) _
    rw [map_target_modify_turn]
    exact hf.reached
  metrics := hf.metrics
  probes hstanding p hp := by
    rcases mem_modify_turn hp with hmem | ⟨p', hmem, rfl⟩
    · exact hf.probes hstanding p hmem
    · refine (hf.probes hstanding p' hmem).turn ?_ t
      -- While the request is under way nothing was sent; behind its answer all probes have ended.
      cases hf' : f.standing with
      | answered response => exact .inr (hf.ended response hf' p' hmem)
      | dropped => exact absurd hf' hstanding
      | _ => exact .inl (hf.channel (by rw [hf']; rfl))
  channel := hf.channel
  ended response hresponse p hp := by
    rcases mem_modify_turn hp with hmem | ⟨p', hmem, rfl⟩
    · exact hf.ended response hresponse p hmem
    · have hsome := hf.ended response hresponse p' hmem
      rwa [FlyingProbe.turn_of_isSome hsome]

/-- Dropping the request keeps what is true of it. -/
theorem Sound.abandon (hf : Sound h v r seen f) : Sound h v r seen f.abandon := by
  rw [Flight.abandon]
  split
  next hlive =>
    exact ⟨hf.current, .dropped hf.reached, hf.metrics, fun hne => absurd rfl hne,
      by simp [Standing.isUnderWay], by simp⟩
  next => exact hf

/-- **Step.** An event keeps what is true of a request. -/
theorem Sound.react (hf : Sound h v r seen f) (e : Event) :
    Sound h v r (seen ++ e.stored) (f.react h e) := by
  have hnone : seen ++ [] = seen := List.append_nil seen
  cases e with
  | advance now => exact hnone.symm ▸ hf.advance now
  | turn i t => exact hnone.symm ▸ hf.turn i t
  | store s =>
    exact ⟨List.mem_append_right _ (List.mem_singleton_self s), hf.reached.mono [s], hf.metrics,
      hf.probes, hf.channel, hf.ended⟩
  | drop => exact hnone.symm ▸ hf.abandon

/-- **Run.** It is true at every point from the start of the request on. -/
theorem sound_during (h : Handler) (v : Service) (r : Request) (events : List Event) :
    Sound h v r (v.settings :: events.flatMap Event.stored) (during h v r events) := by
  have hrun : ∀ seen f, Sound h v r seen f →
      Sound h v r (seen ++ events.flatMap Event.stored) (events.foldl (Flight.react h) f) := by
    induction events with
    | nil => exact fun seen f hf => by simpa using hf
    | cons e events ih =>
      intro seen f hf
      rw [List.flatMap_cons, ← List.append_assoc]
      exact ih _ _ (hf.react e)
  exact hrun _ _ (sound_start h v r)

end Flight

end ServiceHealth.Server
