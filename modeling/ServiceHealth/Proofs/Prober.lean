import ServiceHealth.Prober.Http

/-!
# Signals and probes

A probe that looks at its signal first and then at its own end either runs as if there were no
signal, or ends when the signal fires and reports that its request was cancelled. If the signal
has fired before the probe starts, the probe asks nothing. Timed probes and probes over HTTP are
both of this kind.

## Main definitions

* `Run.CancelledAt` — a run that ended because its signal fired.
* `Prober.HeedsSignal` — a prober that looks at its signal first.

## Main results

* `Prober.heedsSignal_timed`, `Prober.heedsSignal_http` — the probers are of this kind.
* `Prober.http_of_answer` — a probe whose fetch is answered in time.
-/

namespace ServiceHealth

/-- The run of a probe of a member, started at `start`, that ended because its signal fired at
`c`. -/
structure Run.CancelledAt (name uri : String) (start c : Nat) (r : Run) : Prop where
  cancelled : r.cancelled = true
  endsAt : r.endsAt = max c start
  outcome : ∃ ms, r.outcome = .report (.unreachable name uri ms cancelledPayload)
  asked : c ≤ start → r.asked = []

namespace Prober

/-- A prober whose probes look at their signal first, then at their own end: the run without a
signal, or the cancelled one. When both come at the same time, either may be the run. -/
structure HeedsSignal (p : Prober) : Prop where
  start_le : ∀ name uri start, start ≤ (p name uri start none).endsAt
  runs_on : ∀ name uri start, (p name uri start none).cancelled = false
  signal : ∀ name uri start c,
    (start < c ∧ (p name uri start none).endsAt ≤ c ∧
      p name uri start (some c) = p name uri start none) ∨
    (c ≤ (p name uri start none).endsAt ∧ (p name uri start (some c)).CancelledAt name uri start c)

namespace HeedsSignal

variable {p : Prober} {name uri : String} {start c : Nat}

/-- A probe that ends before its signal fires runs as if there were no signal. -/
theorem eq_none_of_lt (h : p.HeedsSignal) (hend : (p name uri start none).endsAt < c) :
    p name uri start (some c) = p name uri start none := by
  rcases h.signal name uri start c with ⟨-, -, heq⟩ | ⟨hle, -⟩
  · exact heq
  · omega

/-- A probe whose signal fires before its end, or has fired before its start, is cancelled. -/
theorem cancelledAt (h : p.HeedsSignal) (hc : c ≤ start ∨ c < (p name uri start none).endsAt) :
    (p name uri start (some c)).CancelledAt name uri start c := by
  rcases h.signal name uri start c with ⟨hstart, hend, -⟩ | ⟨-, hcancelled⟩
  · omega
  · exact hcancelled

/-- A probe with a signal ends when it would without one or when the signal fires, whichever
comes first, and not before it starts. -/
theorem endsAt_eq (h : p.HeedsSignal) :
    (p name uri start (some c)).endsAt = min (p name uri start none).endsAt (max c start) := by
  have hstart := h.start_le name uri start
  rcases h.signal name uri start c with ⟨hlt, hend, heq⟩ | ⟨hle, hcancelled⟩
  · rw [heq]
    omega
  · rw [hcancelled.endsAt]
    omega

end HeedsSignal

/-- A timed prober looks at its signal first. -/
theorem heedsSignal_timed (plan : (name uri : String) → Plan) : (timed plan).HeedsSignal where
  start_le _ _ _ := Nat.le_add_right _ _
  runs_on _ _ _ := rfl
  signal name uri start c := by
    simp only [timed]
    split
    next hle => exact .inr ⟨hle, rfl, rfl, ⟨_, rfl⟩, fun _ => rfl⟩
    next hlt => exact .inl ⟨by omega, by omega, rfl⟩

/-! ### HTTP -/

variable {α : Type}

/-- Without a signal a race is not decided by one. -/
theorem isCancelled_race_none (timeoutMs : Nat) (ending : Option (Nat × α)) :
    (race none timeoutMs ending).2.isCancelled = false := by
  rcases ending with - | ⟨r, result⟩
  · rfl
  · simp only [race]
    split <;> rfl

/-- A race with a signal is decided by it if it comes no later than what else decides. -/
theorem race_some (c timeoutMs : Nat) (ending : Option (Nat × α)) :
    race (some c) timeoutMs ending =
      if c ≤ (race none timeoutMs ending).1 then (c, .cancelled) else race none timeoutMs ending :=
  rfl

/-- What decides a race: a signal that fires no later than the timer, the timer, or a fetch that
ends before it. -/
theorem race_cases (cancelAt : Option Nat) (timeoutMs : Nat) (ending : Option (Nat × α)) :
    (∃ c ∈ cancelAt, c ≤ max timeoutMs 1 ∧ race cancelAt timeoutMs ending = (c, .cancelled)) ∨
    race cancelAt timeoutMs ending = (max timeoutMs 1, .timedOut) ∨
    ∃ e ∈ ending, e.1 < max timeoutMs 1 ∧
      race cancelAt timeoutMs ending = (e.1, .fetched e.2) := by
  have hnone : race none timeoutMs ending = (max timeoutMs 1, .timedOut) ∨
      ∃ e ∈ ending, e.1 < max timeoutMs 1 ∧ race none timeoutMs ending = (e.1, .fetched e.2) := by
    rcases ending with - | ⟨r, result⟩
    · exact .inl rfl
    · by_cases hr : r < max timeoutMs 1
      · exact .inr ⟨_, rfl, hr, by simp only [race, if_pos hr]⟩
      · exact .inl (by simp only [race, if_neg hr])
  cases cancelAt with
  | none => exact .inr hnone
  | some c =>
    rw [race_some]
    split
    next hc =>
      refine .inl ⟨c, rfl, ?_, rfl⟩
      rcases hnone with h | ⟨e, -, hlt, h⟩ <;> rw [h] at hc
      · exact hc
      · exact Nat.le_of_lt (Nat.lt_of_le_of_lt hc hlt)
    next => exact .inr hnone

/-- A race is decided by a fetch that ends before the timer and before the signal. -/
theorem race_of_lt {r timeoutMs : Nat} {result : α} {cancelAt : Option Nat}
    (htimer : r < max timeoutMs 1) (hsignal : ∀ c ∈ cancelAt, r < c) :
    race cancelAt timeoutMs (some (r, result)) = (r, .fetched result) := by
  have hfirst : race none timeoutMs (some (r, result)) = (r, .fetched result) := by
    simp only [race, if_pos htimer]
  cases cancelAt with
  | none => exact hfirst
  | some c =>
    rw [race_some, hfirst, if_neg]
    exact Nat.not_le.mpr (hsignal c rfl)

/-- A prober over HTTP looks at its signal first. -/
theorem heedsSignal_http (network : Net.Network) (timeoutMs : Nat) :
    (http network timeoutMs).HeedsSignal where
  start_le _ _ _ := Nat.le_add_right _ _
  runs_on _ uri _ := isCancelled_race_none timeoutMs (Fetch.ofUri network uri).ending
  signal name uri start c := by
    simp only [http, Option.map_some, Option.map_none, race_some]
    split
    next hle =>
      refine .inr ⟨by omega, rfl, by simp only; omega, ⟨_, rfl⟩, fun hc => ?_⟩
      simp [Decision.asked, Nat.sub_eq_zero_of_le hc]
    next hlt => exact .inl ⟨by omega, by omega, rfl⟩

/-- A probe whose fetch is answered before the timer and before the signal reports what the
answer says. -/
theorem http_of_answer {network : Net.Network} {timeoutMs elapsed start : Nat} {name uri : String}
    {cancelAt : Option Nat} {answer : Answer} {requests : List (Nat × Net.Url)}
    (hfetch : Fetch.ofUri network uri = ⟨requests, some (elapsed, .ok answer)⟩)
    (htimer : elapsed < max timeoutMs 1) (hsignal : ∀ c ∈ cancelAt, start + elapsed < c) :
    http network timeoutMs name uri start cancelAt =
      { endsAt := start + elapsed
        outcome := .report
          ⟨name, uri, classify answer.code answer.body, elapsed, some answer.body⟩
        asked := requests.map Prod.snd } := by
  have hrace : race (cancelAt.map (· - start)) timeoutMs (some (elapsed, Except.ok answer)) =
      (elapsed, Decision.fetched (.ok answer : Except FetchError Answer)) := by
    refine race_of_lt htimer fun c hc => ?_
    obtain ⟨c', hc', rfl⟩ := Option.map_eq_some_iff.mp hc
    have := hsignal c' hc'
    omega
  simp only [http, hfetch, hrace]
  rfl

end Prober

/-- A fetch whose first answer is no redirection: one request, and the body as the charset of
its type reads it. -/
theorem Fetch.ofUri_of_answer {network : Net.Network} {uri : String} {url : Net.Url}
    (hurl : Net.Url.parse network.toAscii uri = .ok url)
    (hfetched : isFetched url.withoutCredentials = true)
    (htarget : isTarget url.withoutCredentials = true) {delay bodyDelay : Nat} {head : Net.Head}
    {bytes : List UInt8} (hanswer : network.exchange [] url.withoutCredentials =
      .answer delay head (.complete bodyDelay bytes))
    (hstays : isRedirect head.code = false) :
    ofUri network uri =
      { requests := [(0, url.withoutCredentials)]
        ending := some (delay + bodyDelay,
          .ok ⟨head.code, bodyText network.decoders head bytes⟩) } := by
  have hfirst : ofUri network uri = follow network maxRedirects 0 [] url.withoutCredentials := by
    simp only [ofUri, hurl, ofUrl, hfetched, htarget, Bool.not_true, Bool.false_eq_true, if_false]
  rw [hfirst, follow.eq_def]
  simp [hanswer, hstays, Net.Exchange.isSent, readBody]

end ServiceHealth
