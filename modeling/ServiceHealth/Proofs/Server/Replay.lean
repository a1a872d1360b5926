import ServiceHealth.Proofs.Check.Outcomes
import ServiceHealth.Proofs.Server.Flight

/-!
# Events of a request that was handled

What the handler computes at once, from the runs of the probes and the moment at which the client
goes away, is one of the courses that a request can take poll by poll. The probes of a check have
their turns, those that have ended by then with their runs; if all of them have, the request has its
turn and goes on, and if it is dropped instead, the others have a turn in which they see it.

`Flight.replay_check` is one check, `Flight.replay_checkAll` any number of them, and
`Flight.replay_interrupted` the check that is in flight when the request is dropped.

## Main definitions

* `Turn.ofRun`, `Turn.ofCancelled` — the turns of a probe with a run.
* `Flight.checked`, `Flight.beforeDrop`, `Flight.afterDrop` — the events of checks.

## Main results

* `Flight.replay_handle`, `Flight.replay_abandon` — requests that are answered or dropped.
-/

namespace ServiceHealth

/-! ### Checks of an asker who goes away -/

/-- Checks that have all ended by a moment have ended by then. -/
theorem endOf_le {now dropAt : Nat} {cs : List Check} (hnow : now ≤ dropAt)
    (hcs : ∀ c ∈ cs, c.endsAt ≤ dropAt) : endOf now cs ≤ dropAt := by
  rw [endOf]
  cases hlast : cs.getLast? with
  | none => exact hnow
  | some c => exact hcs c (List.mem_of_getLast? hlast)

/-- The checks that ended for an asker who goes away are the first ones of those for an asker who
stays. The check in flight, if there is one, is that of the next application. -/
theorem checkUntil_eq (probing : Probing) (s : Settings) (dropAt task now : Nat)
    (apps : List Application) :
    let a := checkUntil probing s dropAt task now apps
    ∃ k, let cs := (checkAll probing s none task now apps).take k
      a.finished = cs ∧
      a.interrupted = (apps.drop k).head?.map
        (Check.begin probing s (some dropAt)
          (cs.foldl (fun task c => task + c.tasks.length) task) (endOf now cs)) := by
  induction apps generalizing task now with
  | nil => exact ⟨0, rfl, rfl⟩
  | cons app apps ih =>
    set c := Check.begin probing s none task now app with hc
    by_cases hend : c.endsAt ≤ dropAt
    · obtain ⟨k, hfinished, hinterrupted⟩ := ih (task + c.tasks.length) c.endsAt
      refine ⟨k + 1, ?_⟩
      simp only [checkUntil, checkAll, ← hc, if_pos hend, List.take_succ_cons, endOf_cons]
      exact ⟨congrArg (c :: ·) hfinished, hinterrupted⟩
    · refine ⟨0, ?_⟩
      rw [checkUntil, ← hc, if_neg hend]
      exact ⟨rfl, rfl⟩

/-- All checks have ended when the asker has gone away, also the one that was in flight. -/
theorem endsAt_checkUntil_le {probing : Probing} (hprobing : ∀ task, (probing task).HeedsSignal)
    (s : Settings) {dropAt now : Nat} (hnow : now ≤ dropAt) (task : Nat) (apps : List Application) :
    let a := checkUntil probing s dropAt task now apps
    ∀ c ∈ a.finished ++ a.interrupted.toList, c.endsAt ≤ dropAt := by
  induction apps generalizing task now with
  | nil => simp [checkUntil]
  | cons app apps ih =>
    rw [checkUntil]
    by_cases hend : (Check.begin probing s none task now app).endsAt ≤ dropAt
    · simp only [if_pos hend, List.cons_append, List.forall_mem_cons]
      exact ⟨hend, ih hend _⟩
    · simp only [if_neg hend, Option.toList_some, List.nil_append, List.forall_mem_singleton]
      have hdispatched := Check.dispatched_begin probing s (some dropAt) task now app
      rw [Check.endsAt_le_iff, hdispatched.startedAt, hdispatched.tasks]
      refine ⟨hnow, fun t ht => ?_⟩
      obtain ⟨i, hi, rfl⟩ := List.mem_mapIdx.mp ht
      rw [Check.taskOf, (hprobing _).endsAt_eq]
      omega

namespace Server

/-! ### Probes -/

namespace Turn

/-- The turn of a probe with this run, started at `start`: it asks what it asks and ends, or it
waits until its signal ends it. -/
def ofRun (start : Nat) (run : Run) : Turn where
  now := if run.cancelled then start else run.endsAt
  asks := run.asked
  ends := if run.cancelled then none else some run.outcome

/-- The turn at `now` of a probe that its signal ends with this run. -/
def ofCancelled (now : Nat) (run : Run) : Turn where
  now
  elapsedMs := match run.outcome with
    | .report r => r.durationMs
    | .panic _ => 0

end Turn

namespace FlyingProbe

variable {number start c : Nat} {target : String × String} {run : Run}

/-- A probe without a signal that fires has its run after one turn. -/
theorem task?_turn_ofRun (hruns : run.cancelled = false) :
    (turn {} (.ofRun start run) { number, target }).task? = some ⟨number, run⟩ := by
  obtain ⟨endsAt, outcome, cancelled, asked⟩ := run
  obtain rfl : cancelled = false := hruns
  rw [turn_of_quiet (by simp) rfl]
  simp [task?, Turn.ofRun]

/-- A probe that its signal ends has its run after a turn in which it sees it. -/
theorem task?_turn_ofCancelled (hrun : run.CancelledAt target.1 target.2 start c)
    (hstart : start ≤ c) :
    (turn (Channel.close {}) (.ofCancelled c run)
      (turn {} (.ofRun start run) { number, target })).task? = some ⟨number, run⟩ := by
  obtain ⟨endsAt, outcome, cancelled, asked⟩ := run
  obtain ⟨hcancelled, hend, ⟨ms, houtcome⟩, -⟩ := hrun
  simp only at hcancelled hend houtcome
  subst hcancelled houtcome
  obtain rfl : endsAt = c := by omega
  rw [turn_of_quiet (by simp) rfl, turn_of_closed _ (by simp [Turn.ofRun])]
  simp [task?, stop, cancelledRun, Turn.ofRun, Turn.ofCancelled, MemberReport.unreachable]

/-- After its turn and one more behind the drop at `c`, a probe that looks at its signal first has
the run that it has with a signal that fires at `c`. -/
theorem task?_turn_turn {p : Prober} (hp : p.HeedsSignal) (hstart : start ≤ c) :
    let run := p target.1 target.2 start (some c)
    (turn (Channel.close {}) (.ofCancelled c run)
      (turn {} (.ofRun start run) { number, target })).task? = some ⟨number, run⟩ := by
  intro run
  rcases hp.signal target.1 target.2 start c with ⟨-, -, heq⟩ | ⟨-, hcancelled⟩
  · have hruns : run.cancelled = false :=
      (congrArg Run.cancelled heq).trans (hp.runs_on target.1 target.2 start)
    have htask : (turn {} (.ofRun start run) { number, target }).task? = some ⟨number, run⟩ :=
      task?_turn_ofRun hruns
    rw [turn_of_isSome, htask]
    obtain ⟨ended, hended, -⟩ := Option.map_eq_some_iff.mp htask
    rw [hended, Option.isSome_some]
  · exact task?_turn_ofCancelled hcancelled hstart

end FlyingProbe

namespace Flight

variable {h : Handler} {f : Flight} {q : Query} {s : Settings}

/-- Each probe has a turn of its own. -/
theorem foldl_turn (h : Handler) (f : Flight) {ts : List Turn}
    (hlength : ts.length = f.probes.length) :
    (ts.mapIdx Event.turn).foldl (react h) f =
      { f with probes := List.zipWith (FlyingProbe.turn f.channel) ts f.probes } := by
  -- The probes before the next one have had their turns.
  have hturns : ∀ (ts : List Turn) (had ps : List FlyingProbe), ts.length = ps.length →
      (ts.mapIdx fun i => Event.turn (had.length + i)).foldl (react h)
          { f with probes := had ++ ps } =
        { f with probes := had ++ List.zipWith (FlyingProbe.turn f.channel) ts ps } := by
    intro ts
    induction ts with
    | nil =>
      intro had ps hps
      obtain rfl := List.length_eq_zero_iff.mp hps.symm
      rfl
    | cons t ts ih =>
      intro had ps hps
      obtain ⟨p, ps, rfl⟩ := List.exists_cons_of_length_eq_add_one hps.symm
      have hmodify : (had ++ p :: ps).modify had.length (·.turn f.channel t) =
          had ++ [p.turn f.channel t] ++ ps := by
        rw [List.modify_eq_set_getElem?]
        simp
      have hrest := ih (had ++ [p.turn f.channel t]) ps (Nat.succ.inj hps)
      simp only [List.length_append, List.length_singleton, Nat.add_assoc, Nat.add_comm 1] at hrest
      rw [List.mapIdx_cons, List.foldl_cons, List.zipWith_cons_cons, Nat.add_zero, react, hmodify,
        hrest, List.append_assoc, List.singleton_append]
  simpa using hturns ts [] f.probes hlength

/-- A request that has recorded more checks than before, and is otherwise as far. -/
structure Records (h : Handler) (cs : List Check) (f f' : Flight) : Prop where
  channel : f'.channel = f.channel
  finished : f'.finished = f.finished ++ cs
  service : f'.service = (f.service.record h.clock cs).countTasks cs

/-- The turns of the probes of a check that has begun: those end that their signal does not end. -/
def begun (c : Check) : List Event :=
  (c.tasks.map fun t => Turn.ofRun c.startedAt t.run).mapIdx Event.turn

/-- The events of a check: the probes end, and the request goes on. -/
def checked (c : Check) : List Event := begun c ++ [.advance c.endsAt]

/-- The probes of a check that has begun, after these turns. -/
def begunProbes (c : Check) : List FlyingProbe :=
  List.zipWith (fun t target =>
    FlyingProbe.turn {} (.ofRun c.startedAt t.run) { number := t.number, target }) c.tasks c.targets

/-- The turns of the probes of a check, one after another. -/
theorem foldl_begun (hchannel : f.channel = {}) {cancelAt : Option Nat} {now : Nat}
    {app : Application} (rest : List Application) {c : Check}
    (hc : c = Check.begin h.probing s cancelAt f.service.nextTask now app) :
    (begun c).foldl (react h) (f.goOn h q s now (app :: rest)) =
      { f with
        standing := .checking q s app now rest
        service := f.service.countTasks [c]
        probes := begunProbes c } := by
  have hdispatched := Check.dispatched_begin h.probing s cancelAt f.service.nextTask now app
  rw [← hc] at hdispatched
  have htargets : c.targets = s.targets app := hc ▸ Check.targets_begin ..
  have hservice : f.service.countTasks [c] =
      { f.service with nextTask := f.service.nextTask + (s.targets app).length } := by
    rw [← htargets, ← hdispatched.length_tasks]
    rfl
  have hlength : c.tasks.length = (s.targets app).length := htargets ▸ hdispatched.length_tasks
  rw [begun, foldl_turn h _ (by simp [goOn, dispatch, hlength]), hservice]
  simp only [goOn, hchannel]
  congr 1
  refine List.ext_getElem (by simp [dispatch, begunProbes, htargets]) fun i hi hi' => ?_
  simp [begunProbes, dispatch, hdispatched.tasks, htargets, Check.taskOf]

/-! ### Checks -/

/-- The turns in which the probes of a check that were left behind see the drop at `dropAt`. -/
def left (dropAt : Nat) (c : Check) : List Event :=
  (c.tasks.map fun t => Turn.ofCancelled dropAt t.run).mapIdx Event.turn

/-- The probes of a check stand for its targets. -/
theorem map_target_begunProbes {c : Check} (hlength : c.tasks.length = c.targets.length) :
    (begunProbes c).map (·.target) = c.targets := by
  refine List.ext_getElem (by simp [begunProbes, hlength]) fun i hi hi' => ?_
  simp [begunProbes, FlyingProbe.target_turn]

/-- Nothing is recorded at first. -/
theorem Records.nil (h : Handler) (f : Flight) : Records h [] f f where
  channel := rfl
  finished := (List.append_nil f.finished).symm
  service := (f.service.record_nil h.clock).symm

/-- Checks after checks. -/
theorem Records.append {cs cs' : List Check} {f' f'' : Flight} (hf : Records h cs f f')
    (hf' : Records h cs' f' f'') : Records h (cs ++ cs') f f'' where
  channel := hf'.channel.trans hf.channel
  finished := by rw [hf'.finished, hf.finished, List.append_assoc]
  service := by
    rw [hf'.service, hf.service]
    simp only [Service.record, Service.countTasks, Option.map_map, List.foldl_append]
    rfl

/-- **Step.** With the events of a check the request comes from one application to the next. -/
theorem replay_check (hprobing : ∀ task, (h.probing task).HeedsSignal) (hchannel : f.channel = {})
    (now : Nat) (app : Application) (rest : List Application) :
    let c := Check.begin h.probing s none f.service.nextTask now app
    ∃ f', Records h [c] f f' ∧
      (checked c).foldl (react h) (f.goOn h q s now (app :: rest)) =
        f'.goOn h q s c.endsAt rest := by
  intro c
  have hdispatched : Check.Dispatched h.probing s none f.service.nextTask now app.members c :=
    Check.dispatched_begin ..
  have hbegun : (begun c).foldl (react h) (f.goOn h q s now (app :: rest)) = _ :=
    foldl_begun hchannel rest rfl
  have htargets : (begunProbes c).map (·.target) = c.targets :=
    map_target_begunProbes hdispatched.length_tasks
  have htasks : (begunProbes c).mapM FlyingProbe.task? = some c.tasks := by
    rw [mapM_task?_eq_some_iff]
    refine List.ext_getElem (by simp [begunProbes, hdispatched.length_tasks]) fun i hi hi' => ?_
    simp only [begunProbes, List.getElem_map, List.getElem_zipWith]
    refine FlyingProbe.task?_turn_ofRun ?_
    simp only [hdispatched.tasks, List.getElem_mapIdx]
    exact (hprobing _).runs_on _ _ _
  have hcheck : (⟨app.name, now, (begunProbes c).map (·.target), c.tasks⟩ : Check) = c :=
    Check.ext (Check.application_begin ..).symm hdispatched.startedAt.symm htargets rfl
  refine ⟨{ f with
    standing := .checking q s app now rest
    finished := f.finished ++ [c]
    service := (f.service.countTasks [c]).record h.clock [c]
    probes := begunProbes c }, ⟨rfl, rfl, rfl⟩, ?_⟩
  rw [checked, List.foldl_append, hbegun]
  simp only [List.foldl_cons, List.foldl_nil, react, advance, htasks, hcheck]

/-- **Run.** With the events of the first `k` checks it comes to the application behind them. -/
theorem replay_checkAll (hprobing : ∀ task, (h.probing task).HeedsSignal)
    (hchannel : f.channel = {}) (now : Nat) (apps : List Application) (k : Nat) :
    let cs := (checkAll h.probing s none f.service.nextTask now apps).take k
    ∃ f', Records h cs f f' ∧
      (cs.flatMap checked).foldl (react h) (f.goOn h q s now apps) =
        f'.goOn h q s (endOf now cs) (apps.drop k) := by
  induction apps generalizing f now k with
  | nil => exact ⟨f, by simpa [checkAll] using Records.nil h f, by simp [checkAll, endOf]⟩
  | cons app apps ih =>
    cases k with
    | zero => exact ⟨f, Records.nil h f, rfl⟩
    | succ k =>
      obtain ⟨f', hrecords, hcheck⟩ :=
        replay_check (q := q) (s := s) hprobing hchannel now app apps
      set c := Check.begin h.probing s none f.service.nextTask now app with hc
      have hnext : f'.service.nextTask = f.service.nextTask + c.tasks.length :=
        congrArg Service.nextTask hrecords.service
      obtain ⟨f'', hrecords', hchecks⟩ :=
        ih (hrecords.channel.trans hchannel) c.endsAt k
      rw [hnext] at hrecords' hchecks
      refine ⟨f'', hrecords.append hrecords', ?_⟩
      simp only [checkAll, ← hc, List.take_succ_cons, List.flatMap_cons, List.foldl_append,
        List.drop_succ_cons, endOf_cons, hcheck, hchecks]

/-- The check in flight when the request is dropped: its probes get the runs of a signal that fires
then, and nothing else is done. -/
theorem replay_interrupted (hprobing : ∀ task, (h.probing task).HeedsSignal)
    (hchannel : f.channel = {}) {now dropAt : Nat} (hnow : now ≤ dropAt) (app : Application)
    (rest : List Application) :
    let c := Check.begin h.probing s (some dropAt) f.service.nextTask now app
    let g := (begun c).foldl (react h) (f.goOn h q s now (app :: rest))
    let g' := (left dropAt c).foldl (react h) (g.react h .drop)
    g.standing.isUnderWay = true ∧ g'.standing = .dropped ∧ g'.finished = f.finished ∧
      g'.service = f.service.countTasks [c] ∧ g'.probes.map (·.target) = c.targets ∧
      g'.probes.map FlyingProbe.task? = c.tasks.map some := by
  intro c g g'
  have hdispatched :
      Check.Dispatched h.probing s (some dropAt) f.service.nextTask now app.members c :=
    Check.dispatched_begin ..
  have hbegun : g = _ := foldl_begun hchannel rest rfl
  have hdropped :
      g.react h .drop = { g with standing := .dropped, channel := f.channel.close } := by
    rw [hbegun]
    rfl
  have hleft : g' = { g with
      standing := .dropped, channel := f.channel.close
      probes := List.zipWith (FlyingProbe.turn f.channel.close)
        (c.tasks.map fun t => Turn.ofCancelled dropAt t.run) (begunProbes c) } := by
    show (left dropAt c).foldl (react h) (g.react h .drop) = _
    rw [left, hdropped, foldl_turn h _ (by simp [hbegun, begunProbes, hdispatched.length_tasks]),
      hbegun]
  rw [hleft, hbegun, hchannel]
  refine ⟨rfl, rfl, rfl, rfl, ?_, ?_⟩
  · rw [← map_target_begunProbes hdispatched.length_tasks]
    refine List.ext_getElem (by simp [begunProbes]) fun i hi hi' => ?_
    simp [FlyingProbe.target_turn]
  · refine List.ext_getElem (by simp [begunProbes, hdispatched.length_tasks]) fun i hi hi' => ?_
    simp only [begunProbes, List.getElem_map, List.getElem_zipWith, hdispatched.tasks,
      List.getElem_mapIdx, hdispatched.startedAt]
    exact FlyingProbe.task?_turn_turn (hprobing _) hnow

/-! ### Requests -/

/-- The events of a request, up to its drop if it is dropped. -/
def beforeDrop (a : Abandoned) : List Event :=
  [.advance 0, .advance 0] ++ a.finished.flatMap checked ++ a.interrupted.toList.flatMap begun

/-- The events of its probes when it has been dropped at `dropAt`. -/
def afterDrop (dropAt : Nat) (a : Abandoned) : List Event :=
  a.interrupted.toList.flatMap (left dropAt)

/-- A request is refused in its first two turns, or it comes to its first application in them. -/
theorem refused_or_checks (h : Handler) (v : Service) (r : Request) :
    (∃ response, h.handle v r = (response, [], v) ∧
      (∀ dropAt, h.abandon v dropAt r = (⟨[], none⟩, v)) ∧
      [Event.advance 0, .advance 0].foldl (react h) (start v r) =
        { start v r with standing := .answered response, channel := Channel.close {} }) ∨
    ∃ q apps,
      (h.handle v r =
        let cs := checkAll h.probing v.settings none v.nextTask 0 apps
        (respond h.clock q (.ok cs), cs, (v.record h.clock cs).countTasks cs)) ∧
      (∀ dropAt, h.abandon v dropAt r =
        let a := checkUntil h.probing v.settings dropAt v.nextTask 0 apps
        (a, (v.record h.clock a.finished).countTasks (a.finished ++ a.interrupted.toList))) ∧
      [Event.advance 0, .advance 0].foldl (react h) (start v r) =
        (start v r).goOn h q v.settings 0 apps := by
  cases hgate : gate h.basePath v.settings r with
  | error response =>
    refine .inl ⟨response, ?_, fun dropAt => ?_, ?_⟩
    · rw [Handler.handle, hgate]
    · rw [Handler.abandon, hgate]
    · simp [react, advance, start, hgate]
  | ok q =>
    cases happs : q.applications v.settings with
    | error e =>
      refine .inl ⟨respond h.clock q (.error e), ?_, fun dropAt => ?_, ?_⟩
      · simp only [Handler.handle, hgate, Handler.serve, Service.ask, happs]
        rfl
      · simp only [Handler.abandon, hgate, Service.abandon, happs]
      · simp [react, advance, start, hgate, happs]
    | ok apps =>
      refine .inr ⟨q, apps, ?_, fun dropAt => ?_, ?_⟩
      · simp only [Handler.handle, hgate, Handler.serve, Service.ask, happs]
        rfl
      · simp only [Handler.abandon, hgate, Service.abandon, happs]
      · simp only [List.foldl_cons, List.foldl_nil, react, advance, start, hgate, happs]
        cases apps <;> rfl

/-- The moment of an event that takes place at one. -/
def Event.at? : Event → Option Nat
  | .advance now => some now
  | .turn _ t => some t.now
  | .store _ | .drop => none

/-- The events of a check take place before it has ended. -/
theorem le_endsAt_of_mem_checked {c : Check} {e : Event} (he : e ∈ checked c) :
    ∀ n ∈ e.at?, n ≤ c.endsAt := by
  obtain ⟨hstarted, hends⟩ := Check.endsAt_le_iff.mp c.endsAt.le_refl
  rcases List.mem_append.mp he with hbegun | hadvance
  · obtain ⟨i, hi, rfl⟩ := List.mem_mapIdx.mp hbegun
    simp only [Event.at?, Option.mem_some_iff, forall_eq', List.getElem_map, Turn.ofRun]
    split
    · exact hstarted
    · exact hends _ (List.getElem_mem _)
  · obtain rfl := List.mem_singleton.mp hadvance
    simp [Event.at?]

/-- What happens before a request is dropped takes place by then, and the rest at that moment. -/
theorem at?_abandon (hprobing : ∀ task, (h.probing task).HeedsSignal) (v : Service) (dropAt : Nat)
    (r : Request) :
    let a := (h.abandon v dropAt r).1
    (∀ e ∈ beforeDrop a, ∀ n ∈ e.at?, n ≤ dropAt) ∧
      ∀ e ∈ afterDrop dropAt a, e.at? = some dropAt := by
  intro a
  have hends : ∀ c ∈ a.finished ++ a.interrupted.toList, c.endsAt ≤ dropAt := by
    rcases refused_or_checks h v r with ⟨response, -, habandon, -⟩ | ⟨q, apps, -, habandon, -⟩
    · simp [a, habandon]
    · simp only [a, habandon]
      exact endsAt_checkUntil_le hprobing _ dropAt.zero_le _ apps
  simp only [List.mem_append] at hends
  constructor
  · intro e he n hn
    simp only [beforeDrop, List.mem_append, List.mem_flatMap] at he
    rcases he with (hfirst | ⟨c, hc, he⟩) | ⟨c, hc, he⟩
    · have hzero : e = .advance 0 := by simpa using hfirst
      obtain rfl : n = 0 := by simpa [hzero, Event.at?, eq_comm] using hn
      exact dropAt.zero_le
    · exact (le_endsAt_of_mem_checked he n hn).trans (hends c (.inl hc))
    · exact (le_endsAt_of_mem_checked (List.mem_append_left _ he) n hn).trans (hends c (.inr hc))
  · intro e he
    obtain ⟨c, -, hleft⟩ := List.mem_flatMap.mp he
    obtain ⟨i, hi, rfl⟩ := List.mem_mapIdx.mp hleft
    simp [Event.at?, Turn.ofCancelled]

/-- The checks that had ended when a request was dropped are the first ones of the request. -/
theorem finished_abandon (h : Handler) (v : Service) (dropAt : Nat) (r : Request) :
    (h.abandon v dropAt r).1.finished <+: (h.handle v r).2.1 := by
  rcases refused_or_checks h v r with
    ⟨response, hhandle, habandon, -⟩ | ⟨q, apps, hhandle, habandon, -⟩
  · simp [hhandle, habandon]
  · obtain ⟨k, hfinished, -⟩ := checkUntil_eq h.probing v.settings dropAt v.nextTask 0 apps
    rw [hhandle, habandon, hfinished]
    exact List.take_prefix k _

/-- **Answered.** A request that is not dropped is answered as it is handled. -/
theorem replay_handle (hprobing : ∀ task, (h.probing task).HeedsSignal) (v : Service)
    (r : Request) :
    let f := during h v r (beforeDrop ⟨(h.handle v r).2.1, none⟩)
    f.standing = .answered (h.handle v r).1 ∧ f.finished = (h.handle v r).2.1 ∧
      f.service = (h.handle v r).2.2 := by
  simp only [during, beforeDrop, Option.toList_none, List.flatMap_nil, List.append_nil,
    List.foldl_append]
  rcases refused_or_checks h v r with ⟨response, hhandle, -, hturns⟩ | ⟨q, apps, hhandle, -, hturns⟩
  · rw [hturns, hhandle]
    exact ⟨rfl, rfl, rfl⟩
  · obtain ⟨f, hrecords, hchecks⟩ := replay_checkAll (f := start v r) (q := q) (s := v.settings)
      hprobing rfl 0 apps apps.length
    set cs := checkAll h.probing v.settings none v.nextTask 0 apps
    have hall : (checkAll h.probing v.settings none (start v r).service.nextTask 0 apps).take
        apps.length = cs := List.take_of_length_le (length_checkAll ..).le
    rw [hall] at hrecords hchecks
    have hfinished : f.finished = cs := hrecords.finished
    rw [hturns, hhandle, hchecks, List.drop_length, ← hfinished]
    exact ⟨rfl, rfl, hfinished ▸ hrecords.service⟩

/-- The checks of a request that is dropped: those that had ended are recorded, the probes of the
one in flight get their runs, and if none was in flight the request had been answered. -/
theorem replay_checkUntil (hprobing : ∀ task, (h.probing task).HeedsSignal)
    (hchannel : f.channel = {}) {now dropAt : Nat} (hnow : now ≤ dropAt) (apps : List Application)
    {a : Abandoned} (ha : a = checkUntil h.probing s dropAt f.service.nextTask now apps) :
    let g := (a.interrupted.toList.flatMap begun).foldl (react h)
      ((a.finished.flatMap checked).foldl (react h) (f.goOn h q s now apps))
    let g' := (Event.drop :: afterDrop dropAt a).foldl (react h) g
    g'.finished = f.finished ++ a.finished ∧
      g'.service =
        (f.service.record h.clock a.finished).countTasks (a.finished ++ a.interrupted.toList) ∧
      match a.interrupted with
      | none => a.finished = checkAll h.probing s none f.service.nextTask now apps ∧
          g'.standing = .answered (respond h.clock q (.ok (f.finished ++ a.finished)))
      | some c => g.standing.isUnderWay = true ∧ g'.standing = .dropped ∧
          g'.probes.map (·.target) = c.targets ∧
          g'.probes.map FlyingProbe.task? = c.tasks.map some := by
  obtain ⟨k, hfinished, hinterrupted⟩ :=
    checkUntil_eq h.probing s dropAt f.service.nextTask now apps
  have hends := endsAt_checkUntil_le hprobing s hnow f.service.nextTask apps
  obtain ⟨f', hrecords, hchecks⟩ := replay_checkAll (q := q) (s := s) hprobing hchannel now apps k
  simp only [← ha] at hfinished hinterrupted hends
  rw [← hfinished] at hrecords hchecks hinterrupted
  have hnow' : endOf now a.finished ≤ dropAt :=
    endOf_le hnow fun c hc => hends c (List.mem_append_left _ hc)
  rw [hchecks]
  cases hrest : apps.drop k with
  | nil =>
    rw [hrest, List.head?_nil, Option.map_none] at hinterrupted
    have hall : a.finished = checkAll h.probing s none f.service.nextTask now apps := by
      rw [hfinished, List.take_of_length_le]
      rw [length_checkAll]
      exact List.drop_eq_nil_iff.mp hrest
    simp only [afterDrop, hinterrupted, Option.toList_none, List.flatMap_nil, List.append_nil]
    refine ⟨hrecords.finished, hrecords.service, hall, ?_⟩
    rw [← hrecords.finished]
    rfl
  | cons app rest =>
    have hnext : f'.service.nextTask =
        a.finished.foldl (fun task c => task + c.tasks.length) f.service.nextTask :=
      congrArg Service.nextTask hrecords.service
    rw [hrest, List.head?_cons, Option.map_some, ← hnext] at hinterrupted
    obtain ⟨hlive, hstanding, hrecorded, hservice, htargets, htasks⟩ :=
      replay_interrupted (q := q) (s := s) hprobing (hrecords.channel.trans hchannel) hnow' app rest
    simp only [afterDrop, hinterrupted, Option.toList_some, List.flatMap_singleton, List.foldl_cons]
    refine ⟨hrecorded.trans hrecords.finished, ?_, hlive, hstanding, htargets, htasks⟩
    rw [hservice, hrecords.service]
    simp only [Service.countTasks, List.foldl_append]

/-- **Dropped.** A request that is dropped at some time leaves what it leaves when it is abandoned
then. -/
theorem replay_abandon (hprobing : ∀ task, (h.probing task).HeedsSignal) (v : Service)
    (dropAt : Nat) (r : Request) :
    let a := (h.abandon v dropAt r).1
    let f := during h v r (beforeDrop a)
    let g := during h v r (beforeDrop a ++ .drop :: afterDrop dropAt a)
    g.finished = a.finished ∧ g.service = (h.abandon v dropAt r).2 ∧
      match a.interrupted with
      | none => g.standing = .answered (h.handle v r).1
      | some c => f.standing.isUnderWay = true ∧ g.standing = .dropped ∧
          g.probes.map (·.target) = c.targets ∧
          g.probes.map FlyingProbe.task? = c.tasks.map some := by
  simp only [during, beforeDrop, List.foldl_append]
  rcases refused_or_checks h v r with
    ⟨response, hhandle, habandon, hturns⟩ | ⟨q, apps, hhandle, habandon, hturns⟩
  · rw [hturns, hhandle, habandon]
    exact ⟨rfl, rfl, rfl⟩
  · rw [hturns, hhandle, habandon]
    set a := checkUntil h.probing v.settings dropAt v.nextTask 0 apps with ha
    obtain ⟨hfinished, hservice, hleft⟩ := replay_checkUntil (f := start v r) (q := q)
      (s := v.settings) hprobing rfl dropAt.zero_le apps ha
    refine ⟨hfinished, hservice, ?_⟩
    cases hinterrupted : a.interrupted with
    | none =>
      simp only [hinterrupted] at hleft ⊢
      obtain ⟨hall, hanswered⟩ := hleft
      refine hanswered.trans ?_
      rw [hall]
      rfl
    | some c =>
      simp only [hinterrupted] at hleft ⊢
      exact hleft

end Flight

end Server

end ServiceHealth
