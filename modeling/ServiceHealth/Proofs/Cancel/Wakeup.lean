import ServiceHealth.Proofs.Cancel.Descent

/-!
# No wake-up is lost

`Cancellations.Sound` ties the channels to what an onlooker writes down: a channel holds true just
when its handle was cancelled or dropped, a signal refers to the channel of the handle that it
descends from, and every waiter is sound on its channel. `Sound.react` says that one event keeps
this, whichever it is, and `sound_during` that it therefore holds after any sequence of events.

## Main definitions

* `Cancellations.Sound` — the invariant.

## Main results

* `Cancellations.Sound.react`, `Cancellations.sound_during` — the invariant after one event and
  after all of them.
* `Cancellations.Sound.turnsLeft_foldl_react` — a waiter ends within two turns once its signal has
  fired.
* `Cancellations.signals_fire_with_their_handles` — which signals are ready and which waiters end.
-/

namespace ServiceHealth

/-- A waiter is sound on the channel of its signal; one whose signal belongs to no handle has made
no step. -/
def Waiter.Sound (s : Cancellations) (x : Waiter) : Prop :=
  match s.channel? x.signal with
  | some c => x.phase.Sound c
  | none => x.phase = .reading

/-- A waiter that has made no step is sound. -/
theorem Waiter.sound_reading (s : Cancellations) (signal : Signal) :
    ({ signal } : Waiter).Sound s := by
  rw [Waiter.Sound]
  split
  · trivial
  · rfl

namespace Cancellations

/-! ### Histories -/

namespace History

/-- A clone has an earlier parent, every handle has a signal of its own, and only handles that
exist have signals or fire. -/
structure Valid (H : History) : Prop where
  rooted : Rooted H.origins
  known : ∀ h, .handle h ∈ H.origins → h < H.handles
  served : ∀ h < H.handles, .handle h ∈ H.origins
  fired : ∀ h ∈ H.fired, h < H.handles

/-- Clones of earlier signals keep earlier parents. -/
theorem rooted_append {origins : List Origin} (hrooted : Rooted origins) {o : Origin}
    (ho : ∀ parent, o = .clone parent → parent < origins.length) : Rooted (origins ++ [o]) := by
  intro k parent hget
  rcases getElem?_append_singleton_eq_some_iff.mp hget with hold | ⟨rfl, hlast⟩
  · exact hrooted k parent hold
  · exact ho parent hlast

/-- An event keeps a history valid. -/
theorem Valid.record {H : History} (hH : H.Valid) (e : Event) : (H.record e).Valid := by
  obtain ⟨hrooted, hknown, hserved, hfired⟩ := hH
  cases e with
  | create =>
    refine ⟨rooted_append hrooted (by simp), ?_, ?_, fun h hh => Nat.lt_succ_of_lt (hfired h hh)⟩
    · intro h hmem
      rcases List.mem_append.mp hmem with hold | hlast
      · exact Nat.lt_succ_of_lt (hknown h hold)
      · obtain rfl : h = H.handles := by simpa using hlast
        exact Nat.lt_succ_self _
    · intro h hlt
      rcases Nat.lt_succ_iff_lt_or_eq.mp hlt with hold | rfl
      · exact List.mem_append_left _ (hserved h hold)
      · simp [History.record]
  | detach =>
    exact ⟨rooted_append hrooted (by simp), by simpa [History.record] using hknown,
      by simpa [History.record] using hserved, hfired⟩
  | clone k =>
    rw [History.record]
    split
    next hk =>
      refine ⟨rooted_append hrooted ?_, by simpa using hknown, by simpa using hserved, hfired⟩
      rintro parent ⟨⟩
      exact hk
    next => exact ⟨hrooted, hknown, hserved, hfired⟩
  | wait k =>
    rw [History.record]
    split <;> exact ⟨hrooted, hknown, hserved, hfired⟩
  | cancel h | drop h =>
    simp only [History.record]
    split
    next hlt =>
      refine ⟨hrooted, hknown, hserved, fun h' hh' => ?_⟩
      rcases List.mem_append.mp hh' with hold | hlast
      · exact hfired h' hold
      · rwa [List.mem_singleton.mp hlast]
    next => exact ⟨hrooted, hknown, hserved, hfired⟩
  | shut | turn | settle => exact ⟨hrooted, hknown, hserved, hfired⟩

/-- A signal that has fired is never forgotten. -/
theorem HasFired.foldl {H : History} {k : Nat} (hfired : H.HasFired k) (events : List Event) :
    (events.foldl History.record H).HasFired k := by
  induction events generalizing H with
  | nil => exact hfired
  | cons e events ih => exact ih (hfired.record e)

/-- A task goes on waiting for the same signal. -/
theorem getElem?_waits_record {H : History} {w k : Nat} (hw : H.waits[w]? = some k) (e : Event) :
    (H.record e).waits[w]? = some k := by
  cases e with
  | wait k' =>
    rw [History.record]
    split
    next => exact getElem?_append_singleton_eq_some_iff.mpr (.inl hw)
    next => exact hw
  | clone | cancel | drop =>
    simp only [History.record]
    split <;> exact hw
  | create | detach | shut | turn | settle => exact hw

/-- A signal descends from a handle that exists. -/
theorem Valid.lt_of_descends {H : History} (hH : H.Valid) {k h : Nat}
    (hdescends : Descends H.origins k h) : h < H.handles := by
  induction hdescends with
  | handle hget => exact hH.known _ (List.mem_of_getElem? hget)
  | clone _ _ ih => exact ih

end History

/-! ### The invariant -/

/-- The channels of the handles hold what has fired, the signals refer to the handles that they
descend from, and the waiters are sound. -/
structure Sound (H : History) (s : Cancellations) : Prop where
  handles : s.channels.length = H.handles
  signals : s.signals.length = H.origins.length
  waiters : s.waiters.length = H.waits.length
  descends : ∀ k h : Nat, s.signals[k]? = some (some h) ↔ Descends H.origins k h
  cancelled : ∀ (h : Nat) (c : Channel), s.channels[h]? = some c →
    (c.cancelled = true ↔ h ∈ H.fired)
  closed : ∀ c ∈ s.channels, c.isOpen = false → c.cancelled = true
  waits : ∀ (w : Nat) (x : Waiter), s.waiters[w]? = some x →
    ∃ k : Nat, H.waits[w]? = some k ∧ s.signals[k]? = some x.signal
  sound : ∀ x ∈ s.waiters, x.Sound s

variable {H : History} {s : Cancellations}

/-- A step of a waiter is one of its phase, on its channel. -/
theorem stepWaiter?_eq {w : Nat} {x : Waiter} {c : Channel} (hw : s.waiters[w]? = some x)
    (hc : s.channel? x.signal = some c) : s.stepWaiter? w =
      (x.phase.next? c).map fun phase =>
        { s with waiters := s.waiters.set w { x with phase } } := by
  rw [stepWaiter?, hw, Option.bind_eq_bind, Option.bind_some, hc, Option.bind_eq_bind,
    Option.bind_some, Option.map_eq_bind]
  rfl

/-- A waiter that has made a step is on a channel, and only its phase has changed. -/
theorem exists_of_stepWaiter? {w : Nat} {s' : Cancellations} (hstep : s.stepWaiter? w = some s') :
    ∃ x c phase, s.waiters[w]? = some x ∧ s.channel? x.signal = some c ∧
      x.phase.next? c = some phase ∧
      s' = { s with waiters := s.waiters.set w { x with phase } } := by
  simp only [stepWaiter?, Option.bind_eq_bind, Option.bind_eq_some_iff] at hstep
  obtain ⟨x, hx, c, hc, phase, hphase, hs'⟩ := hstep
  exact ⟨x, c, phase, hx, hc, hphase, (Option.some.inj hs').symm⟩

/-- A waiter that runs keeps its signal. -/
theorem signal_settleWaiter (x : Waiter) : (s.settleWaiter x).signal = x.signal := by
  rw [settleWaiter]
  split <;> rfl

/-- A waiter that runs makes four steps on its channel. -/
theorem phase_settleWaiter {x : Waiter} {c : Channel} (hc : s.channel? x.signal = some c) :
    (s.settleWaiter x).phase = x.phase.run c 4 := by
  rw [settleWaiter, hc]

/-- Once the waiters have run none of them can go on. -/
theorem stepWaiter?_settle (s : Cancellations) (w : Nat) : s.settle.stepWaiter? w = none := by
  cases hw : s.waiters[w]? with
  | none => simp [stepWaiter?, settle, hw]
  | some x =>
    have hw' : s.settle.waiters[w]? = some (s.settleWaiter x) := by simp [settle, hw]
    cases hc : s.settle.channel? (s.settleWaiter x).signal with
    | none => simp [stepWaiter?, hw', hc]
    | some c =>
      rw [stepWaiter?_eq hw' hc, Option.map_eq_none_iff]
      rw [signal_settleWaiter] at hc
      rw [phase_settleWaiter (s := s) hc]
      exact Phase.next?_run c x.phase

/-- Nothing has happened yet. -/
theorem sound_empty : Sound {} {} where
  handles := rfl
  signals := rfl
  waiters := rfl
  descends k h := iff_of_false (by simp) fun hdescends => by cases hdescends <;> simp_all
  cancelled := by simp
  closed := by simp
  waits := by simp
  sound := by simp

namespace Sound

/-- A waiter has the signal that it began to wait for. -/
theorem exists_signal (hs : Sound H s) {x : Waiter} (hx : x ∈ s.waiters) :
    ∃ k : Nat, s.signals[k]? = some x.signal := by
  obtain ⟨w, hw⟩ := List.mem_iff_getElem?.mp hx
  obtain ⟨k, -, hk⟩ := hs.waits w x hw
  exact ⟨k, hk⟩

/-- A new handle, which has no signal yet. -/
theorem addChannel (hs : Sound H s) (hH : H.Valid) :
    Sound { H with handles := H.handles + 1 } { s with channels := s.channels ++ [{}] } where
  handles := by simp [hs.handles]
  signals := hs.signals
  waiters := hs.waiters
  descends := hs.descends
  cancelled h c hc := by
    rcases getElem?_append_singleton_eq_some_iff.mp hc with hold | ⟨rfl, rfl⟩
    · exact hs.cancelled h c hold
    · refine iff_of_false (by simp) fun hmem => ?_
      have hlt := hH.fired _ hmem
      rw [← hs.handles] at hlt
      exact Nat.lt_irrefl _ hlt
  closed c hc := by
    rcases List.mem_append.mp hc with hold | hlast
    · exact hs.closed c hold
    · rw [List.mem_singleton.mp hlast]
      simp
  waits := hs.waits
  sound x hx := by
    have hchannel : ({ s with channels := s.channels ++ [{}] } : Cancellations).channel? x.signal =
        s.channel? x.signal := by
      cases hsignal : x.signal with
      | none => rfl
      | some h =>
        obtain ⟨k, hk⟩ := hs.exists_signal hx
        rw [hsignal] at hk
        have hlt : h < s.channels.length :=
          hs.handles ▸ hH.lt_of_descends ((hs.descends k h).mp hk)
        simp [channel?, List.getElem?_append_left hlt]
    have hsound := hs.sound x hx
    rw [Waiter.Sound] at hsound ⊢
    rwa [hchannel]

/-- One more signal, which refers to the handle that it descends from. -/
theorem addSignal (hs : Sound H s) {o : Origin} {signal : Signal}
    (hrooted : Rooted (H.origins ++ [o]))
    (hsignal : ∀ h, signal = some h ↔ o.Inherits H.origins h) :
    Sound { H with origins := H.origins ++ [o] } { s with signals := s.signals ++ [signal] } where
  handles := hs.handles
  signals := by simp [hs.signals]
  waiters := hs.waiters
  descends k h := by
    rw [getElem?_append_singleton_eq_some_iff, descends_append_iff hrooted, hs.descends, hs.signals,
      hsignal]
  cancelled := hs.cancelled
  closed := hs.closed
  waits w x hx := by
    obtain ⟨k, hk, hget⟩ := hs.waits w x hx
    exact ⟨k, hk, getElem?_append_singleton_eq_some_iff.mpr (.inl hget)⟩
  sound := hs.sound

/-- A task begins to wait. -/
theorem addWaiter (hs : Sound H s) {k : Nat} {signal : Signal} (hk : s.signals[k]? = some signal) :
    Sound { H with waits := H.waits ++ [k] } { s with waiters := s.waiters ++ [{ signal }] } where
  handles := hs.handles
  signals := hs.signals
  waiters := by simp [hs.waiters]
  descends := hs.descends
  cancelled := hs.cancelled
  closed := hs.closed
  waits w x hx := by
    rcases getElem?_append_singleton_eq_some_iff.mp hx with hold | ⟨rfl, rfl⟩
    · obtain ⟨k', hk', hget⟩ := hs.waits w x hold
      exact ⟨k', getElem?_append_singleton_eq_some_iff.mpr (.inl hk'), hget⟩
    · exact ⟨k, by simp [hs.waiters], hk⟩
  sound x hx := by
    rcases List.mem_append.mp hx with hold | hlast
    · exact hs.sound x hold
    · rw [List.mem_singleton.mp hlast]
      exact Waiter.sound_reading _ signal

/-- The channel of handle `h` goes on, and the same handles have fired but for that one. -/
theorem changeChannel (hs : Sound H s) {h : Nat} {c c' : Channel} (hc : s.channels[h]? = some c)
    (hfollows : c.Follows c') (hclosed : c'.isOpen = false → c'.cancelled = true)
    {fired : List Nat} (hfired : c'.cancelled = true ↔ h ∈ fired)
    (hothers : ∀ h' ≠ h, h' ∈ fired ↔ h' ∈ H.fired) :
    Sound { H with fired } { s with channels := s.channels.set h c' } where
  handles := by simp [hs.handles]
  signals := hs.signals
  waiters := hs.waiters
  descends := hs.descends
  cancelled h' d hd := by
    rw [List.getElem?_set] at hd
    split at hd
    next heq =>
      subst heq
      split at hd
      next =>
        obtain rfl := Option.some.inj hd
        exact hfired
      next => simp at hd
    next hne => rw [hothers h' (Ne.symm hne), hs.cancelled h' d hd]
  closed d hd := by
    rcases List.mem_or_eq_of_mem_set hd with hold | rfl
    · exact hs.closed d hold
    · exact hclosed
  waits := hs.waits
  sound x hx := by
    have hsound := hs.sound x hx
    rw [Waiter.Sound] at hsound ⊢
    cases hsignal : x.signal with
    | none => simpa [channel?, hsignal] using hsound
    | some h' =>
      by_cases heq : h = h'
      · subst heq
        have hlt : h < s.channels.length := (List.getElem?_eq_some_iff.mp hc).1
        simp only [channel?, hsignal, Option.bind_some, hc] at hsound
        simpa [channel?, hlt] using hsound.mono hfollows
      · simpa [channel?, hsignal, List.getElem?_set_ne heq] using hsound

/-- A handle fires that has fired. -/
theorem fireAgain (hs : Sound H s) {h : Nat} (hfired : h ∈ H.fired) :
    Sound { H with fired := H.fired ++ [h] } s where
  handles := hs.handles
  signals := hs.signals
  waiters := hs.waiters
  descends := hs.descends
  cancelled h' c hc := by
    rw [hs.cancelled h' c hc, List.mem_append, List.mem_singleton]
    exact ⟨.inl, fun hmem => hmem.elim id fun heq => heq ▸ hfired⟩
  closed := hs.closed
  waits := hs.waits
  sound := hs.sound

/-- The waiters go on, each on its channel. -/
theorem changeWaiters (hs : Sound H s) {waiters : List Waiter}
    (hlength : waiters.length = s.waiters.length)
    (hwaiters : ∀ (w : Nat) (x' : Waiter), waiters[w]? = some x' →
      ∃ x, s.waiters[w]? = some x ∧ x'.signal = x.signal ∧ x'.Sound s) :
    Sound H { s with waiters } where
  handles := hs.handles
  signals := hs.signals
  waiters := hlength.trans hs.waiters
  descends := hs.descends
  cancelled := hs.cancelled
  closed := hs.closed
  waits w x' hx' := by
    obtain ⟨x, hx, hsignal, -⟩ := hwaiters w x' hx'
    rw [hsignal]
    exact hs.waits w x hx
  sound x' hx' := by
    obtain ⟨w, hw⟩ := List.mem_iff_getElem?.mp hx'
    obtain ⟨x, -, -, hsound⟩ := hwaiters w x' hw
    exact hsound

/-- A channel that a waiter is on is one of those that close only when true is stored. -/
theorem closed_of_channel? (hs : Sound H s) {signal : Signal} {c : Channel}
    (hc : s.channel? signal = some c) : c.isOpen = false → c.cancelled = true := by
  obtain ⟨h, rfl, hget⟩ := Option.bind_eq_some_iff.mp hc
  exact hs.closed c (List.mem_of_getElem? hget)

/-- A waiter makes a step. -/
theorem stepWaiter (hs : Sound H s) {w : Nat} {s' : Cancellations}
    (hstep : s.stepWaiter? w = some s') : Sound H s' := by
  obtain ⟨x, c, phase, hx, hc, hphase, rfl⟩ := exists_of_stepWaiter? hstep
  refine hs.changeWaiters (by simp) fun w' x' hx' => ?_
  rw [List.getElem?_set] at hx'
  split at hx'
  next heq =>
    subst heq
    split at hx'
    next =>
      obtain rfl := Option.some.inj hx'
      refine ⟨x, hx, rfl, ?_⟩
      have hsound := hs.sound x (List.mem_of_getElem? hx)
      simp only [Waiter.Sound, hc] at hsound ⊢
      exact hsound.next (hs.closed_of_channel? hc) hphase
    next => simp at hx'
  next => exact ⟨x', hx', rfl, hs.sound x' (List.mem_of_getElem? hx')⟩

/-- A waiter that runs until it can go on no more stays sound. -/
theorem settleWaiter (hs : Sound H s) {x : Waiter} (hx : x.Sound s) :
    (s.settleWaiter x).Sound s := by
  rw [Waiter.Sound, signal_settleWaiter]
  rw [Waiter.Sound] at hx
  cases hc : s.channel? x.signal with
  | none =>
    rw [hc] at hx
    rwa [Cancellations.settleWaiter, hc]
  | some c =>
    rw [hc] at hx
    rw [phase_settleWaiter hc]
    exact hx.run (hs.closed_of_channel? hc) 4

/-- All waiters run until none can go on. -/
theorem settle (hs : Sound H s) : Sound H s.settle := by
  refine hs.changeWaiters (by simp) fun w x' hx' => ?_
  rw [List.getElem?_map] at hx'
  obtain ⟨x, hx, rfl⟩ := Option.map_eq_some_iff.mp hx'
  exact ⟨x, hx, signal_settleWaiter x, hs.settleWaiter (hs.sound x (List.mem_of_getElem? hx))⟩

/-- A handle that is not alive has fired, if it exists. -/
theorem fired_of_change?_eq_none (hs : Sound H s) {f : Channel → Channel} {h : Nat}
    (hnone : s.change? f h = none) (hlt : h < H.handles) : h ∈ H.fired := by
  rw [← hs.handles] at hlt
  have hget : s.channels[h]? = some s.channels[h] := List.getElem?_eq_getElem hlt
  have hclosed : s.channels[h].isOpen = false := by simpa [change?, hget] using hnone
  exact (hs.cancelled h _ hget).mp (hs.closed _ (List.getElem_mem hlt) hclosed)

/-- A handle is cancelled. -/
theorem cancel (hs : Sound H s) (h : Nat) : Sound (H.record (.cancel h)) (s.react (.cancel h)) := by
  rw [History.record, Cancellations.react, react?]
  cases hcancel : s.cancel? h with
  | none =>
    -- The handle does not exist or its channel is closed, and a closed channel holds true.
    rw [Option.getD_none]
    split
    next hlt => exact hs.fireAgain (hs.fired_of_change?_eq_none hcancel hlt)
    next => exact hs
  | some s' =>
    obtain ⟨c, hc, -, rfl⟩ := change?_eq_some_iff.mp hcancel
    rw [if_pos (hs.handles ▸ (List.getElem?_eq_some_iff.mp hc).1)]
    refine hs.changeChannel hc c.follows_send (fun _ => rfl) (iff_of_true rfl (by simp)) ?_
    intro h' hne
    simp [hne]

/-- The channel of a handle shuts. True was stored in it before, so that nothing fires here. -/
theorem shut (hs : Sound H s) (h : Nat) : Sound H (s.react (.shut h)) := by
  rw [Cancellations.react, react?]
  cases hshut : s.shut? h with
  | none => exact hs
  | some s' =>
    obtain ⟨c, hc, hcancelled, -, rfl⟩ := shut?_eq_some_iff.mp hshut
    exact hs.changeChannel hc c.follows_shut (fun _ => hcancelled) (hs.cancelled h c hc)
      fun _ _ => Iff.rfl

/-- **Step.** An event keeps what is true of handles, signals and waiters. -/
theorem react (hs : Sound H s) (hH : H.Valid) (e : Event) : Sound (H.record e) (s.react e) := by
  have hvalid : (H.record e).Valid := hH.record e
  cases e with
  | create =>
    have hsignal : ∀ h, some s.channels.length = some h ↔
        (Origin.handle H.handles).Inherits H.origins h := by
      intro h
      rw [Option.some.injEq, hs.handles, eq_comm]
      rfl
    exact (hs.addChannel hH).addSignal hvalid.rooted hsignal
  | detach => exact hs.addSignal hvalid.rooted fun h => iff_of_false (by simp) id
  | clone k =>
    rw [History.record] at hvalid ⊢
    cases hk : s.signals[k]? with
    | none =>
      have hge : ¬ k < H.origins.length := by simpa [hs.signals] using hk
      simpa [Cancellations.react, react?, clone?, hk, hge] using hs
    | some signal =>
      have hlt : k < H.origins.length := hs.signals ▸ (List.getElem?_eq_some_iff.mp hk).1
      simp only [Cancellations.react, react?, clone?, hk, if_pos hlt] at hvalid ⊢
      refine hs.addSignal hvalid.rooted fun h => ?_
      rw [← Option.some_inj, ← hk, hs.descends]
      rfl
  | wait k =>
    rw [History.record]
    cases hk : s.signals[k]? with
    | none =>
      have hge : ¬ k < H.origins.length := by simpa [hs.signals] using hk
      simpa [Cancellations.react, react?, wait?, hk, hge] using hs
    | some signal =>
      have hlt : k < H.origins.length := hs.signals ▸ (List.getElem?_eq_some_iff.mp hk).1
      simp only [Cancellations.react, react?, wait?, hk, if_pos hlt]
      exact hs.addWaiter hk
  | cancel h => exact hs.cancel h
  | drop h =>
    rw [react_drop]
    exact (hs.cancel h).shut h
  | shut h => exact hs.shut h
  | turn w =>
    simp only [Cancellations.react, react?, History.record]
    cases hstep : s.stepWaiter? w with
    | none => exact hs
    | some s' => exact hs.stepWaiter hstep
  | settle => exact hs.settle

end Sound

/-- **Run.** It is true after any events. -/
theorem sound_during (events : List Event) :
    (History.of events).Valid ∧ Sound (History.of events) (during events) := by
  have hrun : ∀ H s, H.Valid → Sound H s →
      (events.foldl History.record H).Valid ∧
        Sound (events.foldl History.record H) (events.foldl react s) := by
    induction events with
    | nil => exact fun H s hH hs => ⟨hH, hs⟩
    | cons e events ih => exact fun H s hH hs => ih _ _ (hH.record e) (hs.react hH e)
  exact hrun {} {} ⟨by simp [Rooted], by simp, by simp, by simp⟩ sound_empty

/-! ### Readiness and ends -/

/-- Which signals are ready. -/
theorem ready_eq_true_iff {k : Nat} :
    s.ready[k]? = some true ↔ ∃ signal, s.signals[k]? = some signal ∧ s.isReady signal = true := by
  rw [ready, List.getElem?_map, Option.map_eq_some_iff]

/-- Which waiters have ended. -/
theorem woken_eq_true_iff {w : Nat} :
    s.woken[w]? = some true ↔ ∃ x, s.waiters[w]? = some x ∧ x.phase = .ended := by
  simp [woken, List.getElem?_map, Option.map_eq_some_iff]

namespace Sound

variable {k w : Nat} {x : Waiter} {signal : Signal}

/-- A signal has fired just when true is stored in its channel. -/
theorem hasFired_iff (hs : Sound H s) (hH : H.Valid) (hk : s.signals[k]? = some signal) :
    H.HasFired k ↔ ∃ c, s.channel? signal = some c ∧ c.cancelled = true := by
  constructor
  · rintro ⟨h, hmem, hdescends⟩
    have hlt : h < s.channels.length := hs.handles ▸ hH.lt_of_descends hdescends
    have hget : s.channels[h]? = some s.channels[h] := List.getElem?_eq_getElem hlt
    obtain rfl : signal = some h :=
      Option.some.inj (hk.symm.trans ((hs.descends k h).mpr hdescends))
    exact ⟨s.channels[h], hget, (hs.cancelled h _ hget).mpr hmem⟩
  · rintro ⟨c, hc, hcancelled⟩
    obtain ⟨h, rfl, hget⟩ := Option.bind_eq_some_iff.mp hc
    exact ⟨h, (hs.cancelled h c hget).mp hcancelled, (hs.descends k h).mp hk⟩

/-- A signal is ready just when it has fired. -/
theorem isReady_iff (hs : Sound H s) (hH : H.Valid) (hk : s.signals[k]? = some signal) :
    s.isReady signal = true ↔ H.HasFired k := by
  rw [hs.hasFired_iff hH hk, isReady]
  cases hc : s.channel? signal with
  | none => simp
  | some c =>
    have hclosed := hs.closed_of_channel? hc
    cases hcancelled : c.cancelled <;> simp_all [Channel.isReady]

/-- A waiter ends only when its signal has fired. -/
theorem hasFired_of_ended (hs : Sound H s) (hH : H.Valid) (hk : s.signals[k]? = some x.signal)
    (hx : x.Sound s) (hended : x.phase = .ended) : H.HasFired k := by
  rw [hs.hasFired_iff hH hk]
  rw [Waiter.Sound] at hx
  cases hc : s.channel? x.signal with
  | none => simp [hc, hended] at hx
  | some c =>
    rw [hc, hended] at hx
    exact ⟨c, rfl, hx⟩

/-- A waiter that cannot go on has ended just when its signal has fired. -/
theorem ended_iff_of_stuck (hs : Sound H s) (hH : H.Valid) (hk : s.signals[k]? = some x.signal)
    (hw : s.waiters[w]? = some x) (hstuck : s.stepWaiter? w = none) :
    x.phase = .ended ↔ H.HasFired k := by
  have hx := hs.sound x (List.mem_of_getElem? hw)
  refine ⟨hs.hasFired_of_ended hH hk hx, fun hfired => ?_⟩
  obtain ⟨c, hc, hcancelled⟩ := (hs.hasFired_iff hH hk).mp hfired
  rw [Waiter.Sound, hc] at hx
  rw [stepWaiter?_eq hw hc, Option.map_eq_none_iff] at hstuck
  exact (hx.ended_iff hstuck).mpr hcancelled

/-- A waiter that runs until it can go on no more ends just when its signal has fired. -/
theorem ended_settleWaiter_iff (hs : Sound H s) (hH : H.Valid) (hk : s.signals[k]? = some x.signal)
    (hx : x.Sound s) : (s.settleWaiter x).phase = .ended ↔ H.HasFired k := by
  have hsignal : s.signals[k]? = some (s.settleWaiter x).signal := by rwa [signal_settleWaiter]
  have hsound := hs.settleWaiter hx
  refine ⟨hs.hasFired_of_ended hH hsignal hsound, fun hfired => ?_⟩
  obtain ⟨c, hc, hcancelled⟩ := (hs.hasFired_iff hH hk).mp hfired
  rw [Waiter.Sound, signal_settleWaiter, hc] at hsound
  refine (hsound.ended_iff ?_).mpr hcancelled
  rw [phase_settleWaiter hc]
  exact Phase.next?_run c x.phase

/-- Changing a channel leaves the waiters alone. -/
theorem waiters_change? (s : Cancellations) (f : Channel → Channel) (h : Nat) :
    ((s.change? f h).getD s).waiters = s.waiters := by
  cases hchange : s.change? f h with
  | none => rfl
  | some s' =>
    obtain ⟨c, -, -, rfl⟩ := change?_eq_some_iff.mp hchange
    rfl

/-- Once the signal of a waiter has fired, a turn of it leads towards its end, and nothing else that
happens leads away from it. -/
theorem turnsLeft_react (hs : Sound H s) (hH : H.Valid) (hk : s.signals[k]? = some x.signal)
    (hw : s.waiters[w]? = some x) (hfired : H.HasFired k) (e : Event) :
    ∃ x', (s.react e).waiters[w]? = some x' ∧
      x'.phase.turnsLeft ≤ x.phase.turnsLeft - [e].count (.turn w) := by
  have hx := hs.sound x (List.mem_of_getElem? hw)
  -- Only a turn of waiter `w` and the run of all waiters move it.
  have hstay : ∀ {s' : Cancellations}, s'.waiters[w]? = some x → e ≠ .turn w →
      ∃ x', s'.waiters[w]? = some x' ∧
        x'.phase.turnsLeft ≤ x.phase.turnsLeft - [e].count (.turn w) := by
    intro s' hget he
    exact ⟨x, hget, by simp [he]⟩
  cases e with
  | create | detach => exact hstay hw (by simp)
  | clone parent =>
    refine hstay ?_ (by simp)
    rw [Cancellations.react, react?, clone?]
    cases s.signals[parent]? <;> exact hw
  | wait k' =>
    refine hstay ?_ (by simp)
    rw [Cancellations.react, react?, wait?]
    cases s.signals[k']? with
    | none => exact hw
    | some signal => exact getElem?_append_singleton_eq_some_iff.mpr (.inl hw)
  | cancel h | drop h =>
    refine hstay ?_ (by simp)
    rw [Cancellations.react]
    exact (congrArg (·[w]?) (waiters_change? s _ h)).trans hw
  | shut h =>
    refine hstay ?_ (by simp)
    rw [Cancellations.react, react?]
    cases hshut : s.shut? h with
    | none => exact hw
    | some s' =>
      obtain ⟨c, -, -, -, rfl⟩ := shut?_eq_some_iff.mp hshut
      exact hw
  | turn w' =>
    obtain ⟨c, hc, hcancelled⟩ := (hs.hasFired_iff hH hk).mp hfired
    rw [Waiter.Sound, hc] at hx
    by_cases heq : w' = w
    · subst heq
      have hstep := hx.turnsLeft_next hcancelled
      rw [Cancellations.react, react?, stepWaiter?_eq hw hc]
      cases hnext : x.phase.next? c with
      | none =>
        rw [hnext, Option.getD_none] at hstep
        exact ⟨x, hw, by simpa using Nat.le_of_eq hstep⟩
      | some phase =>
        rw [hnext, Option.getD_some] at hstep
        have hlt : w' < s.waiters.length := (List.getElem?_eq_some_iff.mp hw).1
        exact ⟨{ x with phase }, by simp [hlt], by simpa using Nat.le_of_eq hstep⟩
    · refine hstay ?_ (by simpa using heq)
      rw [Cancellations.react, react?]
      cases hstep : s.stepWaiter? w' with
      | none => exact hw
      | some s' =>
        obtain ⟨x', c', phase, -, -, -, rfl⟩ := exists_of_stepWaiter? hstep
        exact (List.getElem?_set_ne heq).trans hw
  | settle =>
    refine ⟨s.settleWaiter x, ?_, ?_⟩
    · rw [Cancellations.react, react?, Option.getD_some, Cancellations.settle, List.getElem?_map,
        hw]
      rfl
    · have hended := (hs.ended_settleWaiter_iff hH hk hx).mpr hfired
      rw [hended]
      exact Nat.zero_le _

/-- The waiter of a task that began to wait for signal `k`. -/
theorem exists_waiter (hs : Sound H s) (hw : H.waits[w]? = some k) :
    ∃ x, s.waiters[w]? = some x ∧ s.signals[k]? = some x.signal := by
  have hlt : w < s.waiters.length := hs.waiters ▸ (List.getElem?_eq_some_iff.mp hw).1
  have hget : s.waiters[w]? = some s.waiters[w] := List.getElem?_eq_getElem hlt
  obtain ⟨k', hk', hsignal⟩ := hs.waits w _ hget
  obtain rfl := Option.some.inj (hw.symm.trans hk')
  exact ⟨s.waiters[w], hget, hsignal⟩

/-- Once the signal of a waiter has fired, its turns lead it to its end, whatever happens between
them. -/
theorem turnsLeft_foldl_react (hs : Sound H s) (hH : H.Valid) (hw : H.waits[w]? = some k)
    (hfired : H.HasFired k) (hx : s.waiters[w]? = some x) (events : List Event) :
    ∃ x', (events.foldl Cancellations.react s).waiters[w]? = some x' ∧
      x'.phase.turnsLeft ≤ x.phase.turnsLeft - events.count (.turn w) := by
  induction events generalizing H s x with
  | nil => exact ⟨x, hx, Nat.le_refl _⟩
  | cons e events ih =>
    obtain ⟨_, hget, hk⟩ := hs.exists_waiter hw
    obtain rfl := Option.some.inj (hx.symm.trans hget)
    obtain ⟨y, hy, hturn⟩ := hs.turnsLeft_react hH hk hx hfired e
    have hw' : (H.record e).waits[w]? = some k := History.getElem?_waits_record hw e
    obtain ⟨x', hx', hturns⟩ := ih (hs.react hH e) (hH.record e) hw' (hfired.record e) hy
    refine ⟨x', hx', ?_⟩
    rw [← List.singleton_append, List.count_append]
    omega

/-- Every handle has a signal. -/
theorem exists_signal_of_lt (hs : Sound H s) (hH : H.Valid) {h : Nat} (hlt : h < H.handles) :
    some h ∈ s.signals := by
  obtain ⟨k, hk⟩ := List.mem_iff_getElem?.mp (hH.served h hlt)
  exact List.mem_of_getElem? ((hs.descends k h).mpr (.handle hk))

/-- A signal that is there is ready just when it has fired. -/
theorem ready_iff (hs : Sound H s) (hH : H.Valid) (k : Nat) :
    s.ready[k]? = some true ↔ H.HasFired k := by
  rw [ready_eq_true_iff]
  constructor
  · rintro ⟨signal, hk, hready⟩
    exact (hs.isReady_iff hH hk).mp hready
  · rintro ⟨h, hmem, hdescends⟩
    have hk := (hs.descends k h).mpr hdescends
    exact ⟨some h, hk, (hs.isReady_iff hH hk).mpr ⟨h, hmem, hdescends⟩⟩

/-- A task has ended only if its signal has fired, and just then if it cannot go on; the same is so
after all tasks have run. -/
theorem woken_iff (hs : Sound H s) (hH : H.Valid) (hw : H.waits[w]? = some k) :
    (s.woken[w]? = some true → H.HasFired k) ∧
    (s.stepWaiter? w = none → (s.woken[w]? = some true ↔ H.HasFired k)) ∧
    (s.settle.woken[w]? = some true ↔ H.HasFired k) := by
  have hstuck : ∀ {t : Cancellations}, Sound H t → t.stepWaiter? w = none →
      (t.woken[w]? = some true ↔ H.HasFired k) := by
    intro t ht hstep
    obtain ⟨x, hx, hk⟩ := ht.exists_waiter hw
    rw [woken_eq_true_iff, ← ht.ended_iff_of_stuck hH hk hx hstep]
    simp [hx]
  refine ⟨fun hwoken => ?_, hstuck hs, hstuck hs.settle (stepWaiter?_settle s w)⟩
  obtain ⟨x, hx, hended⟩ := woken_eq_true_iff.mp hwoken
  obtain ⟨y, hy, hk⟩ := hs.exists_waiter hw
  obtain rfl := Option.some.inj (hx.symm.trans hy)
  exact hs.hasFired_of_ended hH hk (hs.sound x (List.mem_of_getElem? hx)) hended

/-- A task whose signal has fired has ended after as many turns as it is from its end. -/
theorem woken_foldl_react (hs : Sound H s) (hH : H.Valid) (hw : H.waits[w]? = some k)
    (hfired : H.HasFired k) (hx : s.waiters[w]? = some x) {events : List Event}
    (hturns : x.phase.turnsLeft ≤ events.count (.turn w)) :
    (events.foldl Cancellations.react s).woken[w]? = some true := by
  obtain ⟨x', hx', hleft⟩ := hs.turnsLeft_foldl_react hH hw hfired hx events
  exact woken_eq_true_iff.mpr ⟨x', hx', Phase.turnsLeft_eq_zero_iff.mp (by omega)⟩

end Sound

/-- **Signals fire with their handles.** Let anything happen to handles, signals and waiting tasks,
in any order, with the turns of the tasks anywhere between. Every handle has a signal. A signal is
ready, and a task that began to wait for it now would end, just when it descends by cloning from the
signal of a handle that was cancelled or dropped. A waiting task has ended only if its signal has
fired so, and if it cannot go on it has ended just then: running the tasks ends these and no others,
and leaves none that can go on. Whatever happens later, what is ready stays ready, what has ended
has ended, and a task whose signal has fired ends within two turns. -/
theorem signals_fire_with_their_handles (events : List Event) :
    let s := during events
    let H := History.of events
    (s.channels.length = H.handles ∧ ∀ h < H.handles, some h ∈ s.signals) ∧
    (s.ready.length = H.origins.length ∧ ∀ k : Nat, s.ready[k]? = some true ↔ H.HasFired k) ∧
    (∀ (k : Nat) (signal : Signal), s.signals[k]? = some signal →
      ((s.settleWaiter { signal }).phase = .ended ↔ H.HasFired k)) ∧
    (s.woken.length = H.waits.length ∧ ∀ w k : Nat, H.waits[w]? = some k →
      (s.woken[w]? = some true → H.HasFired k) ∧
      (s.stepWaiter? w = none → (s.woken[w]? = some true ↔ H.HasFired k)) ∧
      (s.settle.woken[w]? = some true ↔ H.HasFired k)) ∧
    (∀ w, s.settle.stepWaiter? w = none) ∧
    ∀ later : List Event,
      let s' := during (events ++ later)
      (∀ k : Nat, s.ready[k]? = some true → s'.ready[k]? = some true) ∧
      (∀ w : Nat, s.woken[w]? = some true → s'.woken[w]? = some true) ∧
      ∀ w k : Nat, H.waits[w]? = some k → H.HasFired k → 2 ≤ later.count (.turn w) →
        s'.woken[w]? = some true := by
  intro s H
  obtain ⟨hH, hs⟩ : H.Valid ∧ Sound H s := sound_during events
  refine ⟨⟨hs.handles, fun h => hs.exists_signal_of_lt hH⟩, ⟨?_, hs.ready_iff hH⟩, ?_, ⟨?_, ?_⟩,
    stepWaiter?_settle s, ?_⟩
  · rw [ready, List.length_map, hs.signals]
  · intro k signal hk
    exact hs.ended_settleWaiter_iff (x := { signal }) hH hk (Waiter.sound_reading s signal)
  · rw [woken, List.length_map, hs.waiters]
  · exact fun w k hw => hs.woken_iff hH hw
  · intro later s'
    have hs' : s' = later.foldl react s := List.foldl_append
    refine ⟨fun k hready => ?_, fun w hwoken => ?_, fun w k hw hfired hturns => ?_⟩
    · obtain ⟨hH', hsound'⟩ := sound_during (events ++ later)
      refine (hsound'.ready_iff hH' k).mpr ?_
      rw [History.of, List.foldl_append]
      exact ((hs.ready_iff hH k).mp hready).foldl later
    · obtain ⟨x, hx, hended⟩ := woken_eq_true_iff.mp hwoken
      obtain ⟨k, hw, hk⟩ := hs.waits w x hx
      have hfired := hs.hasFired_of_ended hH hk (hs.sound x (List.mem_of_getElem? hx)) hended
      rw [hs']
      refine hs.woken_foldl_react hH hw hfired hx ?_
      rw [hended]
      exact Nat.zero_le _
    · obtain ⟨x, hx, -⟩ := hs.exists_waiter hw
      rw [hs']
      refine hs.woken_foldl_react hH hw hfired hx (Nat.le_trans ?_ hturns)
      cases x.phase <;> simp [Phase.turnsLeft]

/-- A task waits for a clone when the handle is dropped in two halves, with another clone made and
waited for between them; a task that waits for a signal without a handle waits on. -/
theorem signals_fire_with_their_handles_of_drop :
    let events : List Event :=
      [.create, .clone 0, .wait 1, .detach, .wait 2, .turn 0, .cancel 0, .clone 1, .wait 3, .shut 0]
    let s := during events
    let H := History.of events
    H.waits[0]? = some 1 ∧ H.HasFired 1 ∧ ¬ H.HasFired 2 ∧
      s.signals[3]? = some (some 0) ∧ (s.settleWaiter ⟨some 0, .reading⟩).phase = .ended ∧
      s.woken = [false, false, false] ∧ s.settle.woken = [true, false, true] ∧
      (during (events ++ [.turn 0, .settle, .turn 0])).woken[0]? = some true := by
  intro events s H
  obtain ⟨-, ⟨-, hready⟩, hfresh, -, -, hlater⟩ := signals_fire_with_their_handles events
  have hfired : H.HasFired 1 := (hready 1).mp (by decide)
  have hother : ¬ H.HasFired 2 := fun h => absurd ((hready 2).mpr h) (by decide)
  have hthird : H.HasFired 3 := (hready 3).mp (by decide)
  refine ⟨rfl, hfired, hother, rfl, (hfresh 3 (some 0) rfl).mpr hthird, by decide, by decide, ?_⟩
  exact (hlater [.turn 0, .settle, .turn 0]).2.2 0 1 rfl hfired (by decide)

end Cancellations

end ServiceHealth
