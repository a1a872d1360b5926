import ServiceHealth.Proofs.Server.Replay

/-!
# Requests whose client goes away

A request that is dropped leaves its probes behind. Its handle is dropped with it, so each probe
that has not ended stops in its next turn and reports that its request was cancelled; it asks
nothing more, and a probe that has had no turn yet asks nothing at all. The request itself does
nothing more: it dispatches no probe, and nothing is recorded but the checks that had ended, which
are those of the first ones of its applications. As long as it has not been dropped, none of its
probes sees its signal fire.

## Main definitions

* `FlyingProbe.LeftBehind`, `Flight.Left` — a probe and a request after the drop.

## Main results

* `Flight.left_append` — what a dropped request leaves, whatever happens later.
* `dropped_request_leaves_prefix` — requests that are dropped, at any point, and those that are not.
-/

namespace ServiceHealth.Server

namespace FlyingProbe

variable {p p' : FlyingProbe}

/-- A probe `p` that was left behind when its request was dropped, some time later: it is as it was
if it had ended; if it ends later, it reports that its request was cancelled; it asks nothing
more. -/
structure LeftBehind (p p' : FlyingProbe) : Prop where
  target : p'.target = p.target
  asked : p'.asked = p.asked
  ended : p.run.isSome = true → p' = p
  cancelled : p.run = none → ∀ run ∈ p'.run, run.cancelled = true ∧ run.asked = p.asked ∧
    ∃ ms, run.outcome = .report (.unreachable p.target.1 p.target.2 ms cancelledPayload)

/-- A probe that has just been left behind. -/
theorem LeftBehind.refl (p : FlyingProbe) : p.LeftBehind p where
  target := rfl
  asked := rfl
  ended _ := rfl
  cancelled hrun := by simp [hrun]

/-- A turn of a probe that was left behind. -/
theorem LeftBehind.turn (h : p.LeftBehind p') (c : Channel) (t : Turn) :
    p.LeftBehind (p'.turn c.close t) := by
  cases hrun : p'.run with
  | some run => rwa [turn_of_isSome (by simp [hrun])]
  | none =>
    rw [turn_of_closed c hrun]
    refine ⟨h.target, h.asked, fun hended => ?_, fun _ run hmem => ?_⟩
    · rw [h.ended hended] at hrun
      simp [hrun] at hended
    · obtain rfl := Option.some.inj hmem
      exact ⟨rfl, h.asked, t.elapsedMs, by rw [← h.target]; rfl⟩

/-- A probe that was left behind before its first turn asks nothing at all. -/
theorem LeftBehind.asks_nothing (h : p.LeftBehind p') (hp : p.Undisturbed)
    (hstarted : p.started = false) : p'.asked = [] ∧ ∀ run ∈ p'.run, run.asked = [] := by
  obtain ⟨hasked, hrun⟩ := hp.asked hstarted
  refine ⟨h.asked.trans hasked, fun run hmem => ?_⟩
  obtain ⟨-, hrunasked, -⟩ := h.cancelled hrun run hmem
  exact hrunasked.trans hasked

/-- A turn behind the drop ends a probe. -/
theorem isSome_run_turn_close (p : FlyingProbe) (c : Channel) (t : Turn) :
    (p.turn c.close t).run.isSome = true := by
  cases hrun : p.run with
  | some run => rw [turn_of_isSome (by simp [hrun]), hrun, Option.isSome_some]
  | none =>
    rw [turn_of_closed c hrun]
    rfl

end FlyingProbe

namespace Flight

variable {h : Handler} {v : Service} {r : Request} {f g : Flight}

/-- A request `f` that was under way and was dropped, after more events: it does nothing more, its
handle is dropped, and the probes that it left behind have ended if they had a turn. -/
structure Left (events : List Event) (f g : Flight) : Prop where
  standing : g.standing = .dropped
  channel : g.channel = f.channel.close
  finished : g.finished = f.finished
  metrics : g.service.metrics = f.service.metrics
  dispatched : g.service.nextTask = f.service.nextTask
  probes : List.Forall₂ FlyingProbe.LeftBehind f.probes g.probes
  turned : ∀ i t, .turn i t ∈ events → ∀ p ∈ g.probes[i]?, p.run.isSome = true

/-- A request under way that has just been dropped. -/
theorem left_drop (h : Handler) (hlive : f.standing.isUnderWay = true) :
    Left [] f (f.react h .drop) := by
  rw [react, abandon, if_pos hlive]
  exact ⟨rfl, rfl, rfl, rfl, rfl, List.forall₂_same.mpr fun p _ => .refl p, by simp⟩

/-- A relation with every element of a list is kept when one of them is changed. -/
theorem forall₂_modify {α β : Type} {R : α → β → Prop} {l : List α} {l' : List β} {φ : β → β}
    (hl : List.Forall₂ R l l') (hφ : ∀ a b, R a b → R a (φ b)) (i : Nat) :
    List.Forall₂ R l (l'.modify i φ) := by
  induction hl generalizing i with
  | nil => simp
  | cons hab hrest ih =>
    cases i with
    | zero => exact .cons (hφ _ _ hab) hrest
    | succ i => exact .cons hab (ih i)

/-- The probes that were left behind keep their targets. -/
theorem Left.map_target {events : List Event} (hg : Left events f g) :
    g.probes.map (·.target) = f.probes.map (·.target) := by
  rw [eq_comm, ← List.forall₂_eq_eq_eq, List.forall₂_map_left_iff, List.forall₂_map_right_iff]
  exact hg.probes.imp fun _ _ hp => hp.target.symm

/-- **Step.** One more event behind the drop. -/
theorem Left.react {events : List Event} (hg : Left events f g) (h : Handler) (e : Event) :
    Left (events ++ [e]) f (g.react h e) := by
  obtain ⟨hstanding, hchannel, hfinished, hmetrics, hdispatched, hprobes, hturned⟩ := hg
  -- Only a turn of a probe changes the probes, and only that is a turn of a probe.
  have hquiet : (∀ i t, e ≠ .turn i t) →
      ∀ i t, .turn i t ∈ events ++ [e] → ∀ p ∈ g.probes[i]?, p.run.isSome = true := by
    intro he i t hmem
    rcases List.mem_append.mp hmem with hmem | hmem
    · exact hturned i t hmem
    · exact absurd (List.mem_singleton.mp hmem).symm (he i t)
  cases e with
  | advance now =>
    have hsame : g.react h (.advance now) = g := by rw [Flight.react, advance, hstanding]
    rw [hsame]
    exact ⟨hstanding, hchannel, hfinished, hmetrics, hdispatched, hprobes, hquiet (by simp)⟩
  | drop =>
    have hsame : g.react h .drop = g := by
      rw [Flight.react, abandon, hstanding]
      rfl
    rw [hsame]
    exact ⟨hstanding, hchannel, hfinished, hmetrics, hdispatched, hprobes, hquiet (by simp)⟩
  | store s =>
    exact ⟨hstanding, hchannel, hfinished, hmetrics, hdispatched, hprobes, hquiet (by simp)⟩
  | turn i t =>
    refine ⟨hstanding, hchannel, hfinished, hmetrics, hdispatched, ?_, ?_⟩
    · simp only [Flight.react, hchannel]
      exact forall₂_modify hprobes (fun _ _ hp => hp.turn f.channel t) i
    · intro j t' hmem p hp
      simp only [Flight.react, hchannel, List.getElem?_modify] at hp
      obtain ⟨p', hp', rfl⟩ := Option.map_eq_some_iff.mp hp
      split
      next => exact FlyingProbe.isSome_run_turn_close p' f.channel t
      next hne =>
        rcases List.mem_append.mp hmem with hmem | hmem
        · exact hturned j t' hmem p' hp'
        · obtain ⟨rfl, -⟩ := Event.turn.inj (List.mem_singleton.mp hmem)
          exact absurd rfl hne

/-- **Run.** All that happens behind the drop. -/
theorem left_append (h : Handler) (v : Service) (r : Request) (before after : List Event)
    (hlive : (during h v r before).standing.isUnderWay = true) :
    Left after (during h v r before) (during h v r (before ++ .drop :: after)) := by
  induction after using List.reverseRecOn with
  | nil =>
    rw [during_append]
    exact left_drop h hlive
  | append_singleton after e ih =>
    rw [← List.cons_append, ← List.append_assoc, during_append]
    exact ih.react h e

/-- A request that is under way has not come to an application and recorded nothing, or it checks an
application and has recorded the checks of those before it. -/
theorem Reached.eq_nil_or_checking {seen : List Settings} {standing : Standing}
    {targets : List (String × String)} {cs : List Check}
    (hreached : Reached h r seen standing targets cs) (hlive : standing.isUnderWay = true) :
    (targets = [] ∧ cs = []) ∨ ∃ q s done app rest, Asks h r seen q s (done ++ app :: rest) ∧
      targets = s.targets app ∧ List.Forall₂ (IsCheckOf s) done cs := by
  cases hreached with
  | received => exact .inl ⟨rfl, rfl⟩
  | admitted => exact .inl ⟨rfl, rfl⟩
  | checking hasks hchecks => exact .inr ⟨_, _, _, _, _, hasks, rfl, hchecks⟩
  | refused | answered | dropped => simp [Standing.isUnderWay] at hlive

/-- None of the recorded checks has a probe that saw its signal fire. -/
theorem Reached.cancelled_eq_false {seen : List Settings} {standing : Standing}
    {targets : List (String × String)} {cs : List Check}
    (hreached : Reached h r seen standing targets cs) :
    ∀ c ∈ cs, ∀ t ∈ c.tasks, t.run.cancelled = false := by
  have hall : ∀ {s apps cs}, List.Forall₂ (IsCheckOf s) apps cs →
      ∀ c ∈ cs, ∀ t ∈ c.tasks, t.run.cancelled = false := by
    intro s apps cs hchecks
    induction hchecks with
    | nil => simp
    | cons hcheck _ ih => exact List.forall_mem_cons.mpr ⟨hcheck.undisturbed, ih⟩
  induction hreached with
  | received | refused | admitted => simp
  | checking _ hchecks => exact hall hchecks
  | answered _ hchecks => exact hall hchecks
  | dropped _ ih => exact ih

/-- A request is not dropped before its drop. -/
theorem drop_notMem_beforeDrop (a : Abandoned) : .drop ∉ beforeDrop a := by
  simp [beforeDrop, checked, begun, List.mem_mapIdx]

end Flight

open Flight

/-- **Dropped requests.** Take any point at which a request is under way, and let it be dropped
there. Whatever happens later, its signal has fired, it dispatches no further probe, and each probe
that it left behind is as it was if it had ended, or else reports that its request was cancelled as
soon as it has a turn, and asks nothing more; a probe without a turn before the drop asks nothing.
The metrics are those of the checks it had recorded, and these are complete checks of its first
applications in configured order: those before the one whose probes were in flight. At every point
at which a request has not been dropped, none of its probes has seen its signal fire.

A request that is handled, or abandoned at some time, takes one of these courses if its probes look
at their signal first. -/
theorem dropped_request_leaves_prefix {h : Handler}
    (hprobing : ∀ task, (h.probing task).HeedsSignal) (v : Service) (r : Request) :
    (∀ before after : List Flight.Event,
      let f := during h v r before
      let g := during h v r (before ++ .drop :: after)
      f.standing.isUnderWay = true →
        g.channel.isReady = true ∧ g.service.nextTask = f.service.nextTask ∧
        List.Forall₂ (fun p p' => p.LeftBehind p' ∧
          (p.started = false → p'.asked = [] ∧ ∀ run ∈ p'.run, run.asked = [])) f.probes g.probes ∧
        (∀ i t p, .turn i t ∈ after → g.probes[i]? = some p → p.run.isSome = true) ∧
        g.service.metrics = (v.record h.clock g.finished).metrics ∧
        ((g.probes = [] ∧ g.finished = []) ∨ ∃ q s done app rest,
          Asks h r (v.settings :: before.flatMap Flight.Event.stored) q s (done ++ app :: rest) ∧
          g.probes.map (·.target) = s.targets app ∧
          List.Forall₂ (IsCheckOf s) done g.finished)) ∧
    (∀ events : List Flight.Event,
      let f := during h v r events
      f.standing ≠ .dropped → (∀ p ∈ f.probes, p.Undisturbed) ∧
        ∀ c ∈ f.finished, ∀ t ∈ c.tasks, t.run.cancelled = false) ∧
    (∃ events : List Flight.Event, .drop ∉ events ∧
      let f := during h v r events
      f.standing = .answered (h.handle v r).1 ∧ f.finished = (h.handle v r).2.1 ∧
        f.service = (h.handle v r).2.2) ∧
    ∀ dropAt : Nat,
      let a := (h.abandon v dropAt r).1
      a.finished <+: (h.handle v r).2.1 ∧
      ∃ before after : List Flight.Event, .drop ∉ before ∧
        (∀ e ∈ before, ∀ n ∈ e.at?, n ≤ dropAt) ∧ (∀ e ∈ after, ∀ n ∈ e.at?, dropAt ≤ n) ∧
        let f := during h v r before
        let g := during h v r (before ++ .drop :: after)
        g.finished = a.finished ∧ g.service = (h.abandon v dropAt r).2 ∧
        match a.interrupted with
        | none => g.standing = .answered (h.handle v r).1
        | some c => f.standing.isUnderWay = true ∧ g.standing = .dropped ∧
            g.probes.map (·.target) = c.targets ∧
            g.probes.map FlyingProbe.task? = c.tasks.map some := by
  refine ⟨?_, ?_, ?_, ?_⟩
  · intro before after f g hlive
    have hsound : Sound h v r _ f := sound_during h v r before
    have hleft : Left after f g := left_append h v r before after hlive
    have hundropped : f.standing ≠ .dropped := by
      intro hdropped
      rw [hdropped] at hlive
      exact absurd hlive (by decide)
    have hprobes := (List.forall₂_and_left _ _).mpr ⟨hsound.probes hundropped, hleft.probes⟩
    refine ⟨?_, hleft.dispatched, ?_, fun i t p hmem hp => hleft.turned i t hmem p hp, ?_, ?_⟩
    · rw [hleft.channel]
      exact Channel.isReady_close _
    · exact hprobes.imp fun p p' hp => ⟨hp.2, hp.2.asks_nothing hp.1⟩
    · rw [hleft.metrics, hleft.finished]
      exact hsound.metrics
    · rw [hleft.finished, hleft.map_target]
      refine (hsound.reached.eq_nil_or_checking hlive).imp_left ?_
      rintro ⟨htargets, hfinished⟩
      refine ⟨?_, hfinished⟩
      rw [← List.map_eq_nil_iff (f := (·.target)), hleft.map_target, htargets]
  · intro events f hstanding
    have hsound : Sound h v r _ f := sound_during h v r events
    exact ⟨hsound.probes hstanding, hsound.reached.cancelled_eq_false⟩
  · exact ⟨_, drop_notMem_beforeDrop _, replay_handle hprobing v r⟩
  · intro dropAt
    obtain ⟨hbefore, hafter⟩ := at?_abandon hprobing v dropAt r
    refine ⟨finished_abandon h v dropAt r, _, _, drop_notMem_beforeDrop _, hbefore, ?_,
      replay_abandon hprobing v dropAt r⟩
    intro e he n hn
    rw [hafter e he, Option.mem_some_iff] at hn
    exact hn.le

/-- A list request over HTTP that is dropped at time 25, while the second of three applications is
checked: one of its probes has been answered and the other one is cancelled, the first application
is recorded, and the third one is not checked. -/
theorem dropped_request_leaves_prefix_of_three_applications :
    let s : Settings :=
      { healthChecks := [⟨"a", "http://a/"⟩, ⟨"b", "http://b/"⟩, ⟨"c", "http://c/"⟩]
        applications := [⟨"First", ["a", "ghost"]⟩, ⟨"Second", ["b", "c"]⟩, ⟨"Third", ["a"]⟩] }
    let network : Net.Network :=
      { exchange := fun _ url =>
          if url.render = "http://c/" then .silence
          else .answer 10 ⟨⟨200, by decide, by decide⟩, []⟩ (.complete 0 []) }
    let h : Handler := ⟨"/api", Prober.http network 3000, fun _ => default⟩
    let v := Service.ofSettings s true
    let r : Request := ⟨.get, ⟨"/api/applications"⟩⟩
    ∃ before after : List Flight.Event,
      let f := during h v r before
      let g := during h v r (before ++ .drop :: after)
      f.standing.isUnderWay = true ∧ g.channel.isReady = true ∧
      g.probes.map (fun p => p.run.map (·.outcome)) =
        [some (.report ⟨"b", "http://b/", ⟨"Healthy"⟩, 10, some ""⟩),
          some (.report (.unreachable "c" "http://c/" 15 "Request cancelled"))] ∧
      g.finished.map (·.application) = ["First"] ∧ g.service.nextTask = 4 ∧
      g.service.metrics = (v.record h.clock g.finished).metrics := by
  intro s network h v r
  obtain ⟨hdrop, -, -, habandon⟩ :=
    dropped_request_leaves_prefix (h := h) (fun _ => Prober.heedsSignal_http network 3000) v r
  obtain ⟨-, before, after, -, -, -, hfinished, hservice, hleft⟩ := habandon 25
  have hinterrupted : (h.abandon v 25 r).1.interrupted.map (·.tasks.map (·.run.outcome)) =
      some [.report ⟨"b", "http://b/", ⟨"Healthy"⟩, 10, some ""⟩,
        .report (.unreachable "c" "http://c/" 15 "Request cancelled")] := by decide +kernel
  obtain ⟨c, hc, houtcomes⟩ := Option.map_eq_some_iff.mp hinterrupted
  rw [hc] at hleft
  obtain ⟨hlive, -, -, htasks⟩ := hleft
  obtain ⟨hfired, -, -, -, hmetrics, -⟩ := hdrop before after hlive
  refine ⟨before, after, hlive, hfired, ?_, ?_, ?_, hmetrics⟩
  · have houtcome : (fun p : FlyingProbe => p.run.map (·.outcome)) =
        Option.map (·.run.outcome) ∘ FlyingProbe.task? := by
      funext p
      rw [Function.comp_apply, FlyingProbe.task?, Option.map_map]
      rfl
    rw [houtcome, ← List.map_map, htasks]
    simpa using congrArg (List.map some) houtcomes
  · rw [hfinished]
    decide +kernel
  · rw [hservice]
    decide +kernel

end ServiceHealth.Server
