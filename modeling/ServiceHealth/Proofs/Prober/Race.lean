import Mathlib.Data.ENat.Lattice
import ServiceHealth.Cancel
import ServiceHealth.Proofs.Prober

/-!
# Signal, timer and fetch

A probe over HTTP looks at its signal, at its timer and at its fetch, in this order, whenever one of
them has something to tell, and is decided by the first look that finds something. The timer is set
once, when the probe starts. A fetch is made of parts, the heads of its answers and the body of the
last one, and ends after all of them (`Fetch.Parts.ending_eq`): so the timer bounds their sum, and
neither a head nor a redirection nor a part of the body sets it again.

Moments are counted from the start of the probe; what never happens is at the moment `⊤`.

## Main definitions

* `Fetch.Stages`, `Fetch.Parts` — how long the parts of a fetch take, and what comes of it.
* `look`, `Fires` — what a look finds, and the moment at which a signal fires.

## Main results

* `look_race` — a race is decided by the first look that finds something.
* `Prober.http_decided_by_first` — the outcome and the end of a probe, for all moments.
-/

namespace ServiceHealth

open Net

/-! ### The parts of a fetch -/

namespace Fetch

/-- Where an answer leads to, if it is a redirection that leads anywhere. -/
def redirection? (toAscii : ToAscii) (url : Url) (head : Head) : Option Url :=
  if isRedirect head.code then location? toAscii url head else none

/-- The parts of a fetch from a URL on, with some redirections left to follow: how long each head
and the body take, and what comes of the fetch, which is nothing if a part never ends. -/
inductive Stages (network : Network) : (hops : Nat) → (earlier : List Url) → Url → List Nat →
    Option (Except FetchError Answer) → Prop
  | silent {hops earlier url} : network.exchange earlier url = .silence →
      Stages network hops earlier url [] none
  | failed {hops earlier url delay sent cause} :
      network.exchange earlier url = .failure delay sent cause →
      Stages network hops earlier url [delay] (some (.error (.sending url cause)))
  | whole {hops earlier url delay head bodyDelay bytes} :
      network.exchange earlier url = .answer delay head (.complete bodyDelay bytes) →
      redirection? network.toAscii url head = none →
      Stages network hops earlier url [delay, bodyDelay]
        (some (.ok ⟨head.code, bodyText network.decoders head bytes⟩))
  | broken {hops earlier url delay head bodyDelay cause} :
      network.exchange earlier url = .answer delay head (.broken bodyDelay cause) →
      redirection? network.toAscii url head = none →
      Stages network hops earlier url [delay, bodyDelay] (some (.error (.bodyBroken cause)))
  | endless {hops earlier url delay head} :
      network.exchange earlier url = .answer delay head .endless →
      redirection? network.toAscii url head = none → Stages network hops earlier url [delay] none
  | redirected {hops earlier url delay head body next parts result} :
      network.exchange earlier url = .answer delay head body →
      redirection? network.toAscii url head = some next → isFetched next = true →
      Stages network hops (url :: earlier) next parts result →
      Stages network (hops + 1) earlier url (delay :: parts) result
  | astray {hops earlier url delay head body next} :
      network.exchange earlier url = .answer delay head body →
      redirection? network.toAscii url head = some next → isFetched next = false →
      Stages network (hops + 1) earlier url [delay] (some (.error (.schemeNotAllowed next)))
  | tooMany {earlier url delay head body next} :
      network.exchange earlier url = .answer delay head body →
      redirection? network.toAscii url head = some next →
      Stages network 0 earlier url [delay] (some (.error (.tooManyRedirects url)))

/-- The parts of the fetch of a URI; it has none if nothing can be asked. -/
inductive Parts (network : Network) (uri : String) : List Nat →
    Option (Except FetchError Answer) → Prop
  | invalid {e} : Url.parse network.toAscii uri = .error e →
      Parts network uri [] (some (.error (.invalidUri uri e)))
  | notFetched {url} : Url.parse network.toAscii uri = .ok url →
      isFetched url.withoutCredentials = false →
      Parts network uri [] (some (.error (.schemeNotAllowed url.withoutCredentials)))
  | notATarget {url} : Url.parse network.toAscii uri = .ok url →
      isFetched url.withoutCredentials = true → isTarget url.withoutCredentials = false →
      Parts network uri [] (some (.error (.notATarget url.withoutCredentials)))
  | followed {url parts result} : Url.parse network.toAscii uri = .ok url →
      isFetched url.withoutCredentials = true → isTarget url.withoutCredentials = true →
      Stages network maxRedirects [] url.withoutCredentials parts result →
      Parts network uri parts result

variable {network : Network}

/-- The head of an answer takes the fetch to where its redirection leads. -/
theorem follow_answer {hops now delay : Nat} {earlier : List Url} {url : Url} {head : Head}
    {body : Delivery} (hanswer : network.exchange earlier url = .answer delay head body) :
    (follow network hops now earlier url).ending =
      match redirection? network.toAscii url head, hops with
      | none, _ => readBody network.decoders (now + delay) head body
      | some _, 0 => some (now + delay, .error (.tooManyRedirects url))
      | some next, hops + 1 =>
        if isFetched next then (follow network hops (now + delay) (url :: earlier) next).ending
        else some (now + delay, .error (.schemeNotAllowed next)) := by
  rw [follow.eq_def]
  simp only [hanswer, redirection?]
  split
  next hnext => simp only [hnext]
  next next hnext =>
    rw [hnext]
    cases hops with
    | zero => rfl
    | succ hops =>
      simp only
      split <;> rfl

/-- **Step.** From any moment on a fetch takes as long as its parts together. -/
theorem Stages.ending_eq {hops : Nat} {earlier : List Url} {url : Url} {parts : List Nat}
    {result : Option (Except FetchError Answer)} (h : Stages network hops earlier url parts result)
    (now : Nat) :
    (follow network hops now earlier url).ending = result.map (now + parts.sum, ·) := by
  induction h generalizing now with
  | silent hsilence => rw [follow.eq_def]; simp [hsilence]
  | failed hfailure => rw [follow.eq_def]; simp [hfailure]
  | whole hanswer hstays | broken hanswer hstays =>
    simp [follow_answer hanswer, hstays, readBody, Nat.add_assoc]
  | endless hanswer hstays => simp [follow_answer hanswer, hstays, readBody]
  | redirected hanswer hnext hfetched _ ih =>
    simp [follow_answer hanswer, hnext, hfetched, ih, Nat.add_assoc]
  | astray hanswer hnext hfetched => simp [follow_answer hanswer, hnext, hfetched]
  | tooMany hanswer hnext => simp [follow_answer hanswer, hnext]

/-- A fetch that is not redirected has parts. -/
theorem exists_stages_of_stays {hops : Nat} {earlier : List Url} {url : Url}
    (hstays : ∀ delay head body, network.exchange earlier url = .answer delay head body →
      redirection? network.toAscii url head = none) :
    ∃ parts result, Stages network hops earlier url parts result := by
  rcases hexchange : network.exchange earlier url with
    - | ⟨delay, sent, cause⟩ | ⟨delay, head, body⟩
  · exact ⟨_, _, .silent hexchange⟩
  · exact ⟨_, _, .failed hexchange⟩
  · have hnext := hstays delay head body hexchange
    cases body with
    | complete => exact ⟨_, _, .whole hexchange hnext⟩
    | broken => exact ⟨_, _, .broken hexchange hnext⟩
    | endless => exact ⟨_, _, .endless hexchange hnext⟩

/-- A fetch has parts, however many redirections are left to follow. -/
theorem exists_stages (network : Network) (hops : Nat) (earlier : List Url) (url : Url) :
    ∃ parts result, Stages network hops earlier url parts result := by
  induction hops generalizing earlier url with
  | zero =>
    by_cases hstays : ∀ delay head body, network.exchange earlier url = .answer delay head body →
        redirection? network.toAscii url head = none
    · exact exists_stages_of_stays hstays
    · push Not at hstays
      obtain ⟨delay, head, body, hanswer, hredirected⟩ := hstays
      obtain ⟨next, hnext⟩ := Option.ne_none_iff_exists'.mp hredirected
      exact ⟨_, _, .tooMany hanswer hnext⟩
  | succ hops ih =>
    by_cases hstays : ∀ delay head body, network.exchange earlier url = .answer delay head body →
        redirection? network.toAscii url head = none
    · exact exists_stages_of_stays hstays
    · push Not at hstays
      obtain ⟨delay, head, body, hanswer, hredirected⟩ := hstays
      obtain ⟨next, hnext⟩ := Option.ne_none_iff_exists'.mp hredirected
      cases hfetched : isFetched next with
      | false => exact ⟨_, _, .astray hanswer hnext hfetched⟩
      | true =>
        obtain ⟨parts, result, hstages⟩ := ih (url :: earlier) next
        exact ⟨_, _, .redirected hanswer hnext hfetched hstages⟩

/-- **Run.** A fetch ends after the sum of its parts, or never. -/
theorem Parts.ending_eq {uri : String} {parts : List Nat}
    {result : Option (Except FetchError Answer)} (h : Parts network uri parts result) :
    (ofUri network uri).ending = result.map (parts.sum, ·) := by
  cases h with
  | invalid hurl => simp [ofUri, hurl, failed]
  | notFetched hurl hfetched => simp [ofUri, hurl, ofUrl, hfetched, failed]
  | notATarget hurl hfetched htarget => simp [ofUri, hurl, ofUrl, hfetched, htarget, failed]
  | followed hurl hfetched htarget hstages =>
    simp [ofUri, hurl, ofUrl, hfetched, htarget, hstages.ending_eq]

/-- Every fetch has parts. -/
theorem exists_parts (network : Network) (uri : String) :
    ∃ parts result, Parts network uri parts result := by
  cases hurl : Url.parse network.toAscii uri with
  | error e => exact ⟨_, _, .invalid hurl⟩
  | ok url =>
    cases hfetched : isFetched url.withoutCredentials with
    | false => exact ⟨_, _, .notFetched hurl hfetched⟩
    | true =>
      cases htarget : isTarget url.withoutCredentials with
      | false => exact ⟨_, _, .notATarget hurl hfetched htarget⟩
      | true =>
        obtain ⟨parts, result, hstages⟩ :=
          exists_stages network maxRedirects [] url.withoutCredentials
        exact ⟨_, _, .followed hurl hfetched htarget hstages⟩

/-- What a probe reports of a member, after so long, when its fetch decides. -/
def report (name uri : String) (elapsed : Nat) : Except FetchError Answer → MemberReport
  | .error e => .unreachable name uri elapsed e.message
  | .ok a => ⟨name, uri, classify a.code a.body, elapsed, some a.body⟩

end Fetch

/-! ### Looks -/

/-- What a look at a moment finds: a signal that has fired, else a timer that has, else a fetch that
has ended. -/
def look {α : Type} (fired : Nat → Bool) (timeoutMs : Nat) (ending : Option (Nat × α)) (now : Nat) :
    Option (Decision α) :=
  if fired now then some .cancelled
  else if timeoutMs ≤ now then some .timedOut
  else (ending.filter (·.1 ≤ now)).map fun e => .fetched e.2

/-- The first moment at which a signal has fired, if there is one. -/
inductive Fires (fired : Nat → Bool) : Option Nat → Prop
  | never : (∀ t, fired t = false) → Fires fired none
  | since {c} : fired c = true → (∀ t < c, fired t = false) → Fires fired (some c)

/-- A signal that has not fired at any moment never fires. -/
theorem Fires.eq_none {fired : Nat → Bool} {cancelAt : Option Nat} (h : Fires fired cancelAt)
    (hquiet : ∀ t, fired t = false) : cancelAt = none := by
  cases h with
  | never => rfl
  | since hfired => exact absurd hfired (by rw [hquiet]; decide)

/-- What a probe reports of a member, after so long, when it was decided so. -/
def Decision.report (timeoutMs : Nat) (name uri : String) (elapsed : Nat)
    (d : Decision (Except FetchError Answer)) : MemberReport :=
  ⟨name, uri, (d.verdict timeoutMs).1, elapsed, some (d.verdict timeoutMs).2⟩

/-- A moment, with `⊤` for what never happens. -/
def moment : Option Nat → ℕ∞
  | some t => t
  | none => ⊤

theorem moment_le_iff {m : Option Nat} {n : Nat} : moment m ≤ n ↔ ∃ t ∈ m, t ≤ n := by
  cases m <;> simp [moment]

theorem le_moment_iff {m : Option Nat} {n : Nat} : n ≤ moment m ↔ ∀ t ∈ m, n ≤ t := by
  cases m <;> simp [moment]

theorem lt_moment_iff {m : Option Nat} {n : Nat} : n < moment m ↔ ∀ t ∈ m, n < t := by
  cases m <;> simp [moment]

section Race

variable {α : Type} {timeoutMs : Nat} {cancelAt : Option Nat} {ending : Option (Nat × α)}

/-- A race is decided by a signal that fires no later than the timer and the end of the fetch. -/
theorem race_of_signal (hpos : 0 < timeoutMs) {c : Nat} (htimer : c ≤ timeoutMs)
    (hfetch : ∀ e ∈ ending, c ≤ e.1) : race (some c) timeoutMs ending = (c, .cancelled) := by
  rw [Prober.race_some, if_pos]
  have hmax : max timeoutMs 1 = timeoutMs := Nat.max_eq_left hpos
  rcases ending with - | ⟨r, result⟩
  · simpa only [race, hmax] using htimer
  · have hr : c ≤ r := hfetch _ rfl
    simp only [race, hmax]
    split
    · exact hr
    · exact htimer

/-- A race is decided by the timer if the signal fires later, and the fetch ends no earlier. -/
theorem race_of_timer (hpos : 0 < timeoutMs) (hsignal : ∀ c ∈ cancelAt, timeoutMs < c)
    (hfetch : ∀ e ∈ ending, timeoutMs ≤ e.1) :
    race cancelAt timeoutMs ending = (timeoutMs, .timedOut) := by
  have hmax : max timeoutMs 1 = timeoutMs := Nat.max_eq_left hpos
  have hfirst : race none timeoutMs ending = (timeoutMs, .timedOut) := by
    rcases ending with - | ⟨r, result⟩
    · simp only [race, hmax]
    · have hr : timeoutMs ≤ r := hfetch _ rfl
      simp only [race, hmax, if_neg (Nat.not_lt.mpr hr)]
  cases cancelAt with
  | none => exact hfirst
  | some c =>
    rw [Prober.race_some, hfirst, if_neg]
    exact Nat.not_le.mpr (hsignal c rfl)

/-- A signal that comes no later than the timer and the end of the fetch decides the race. -/
theorem race_of_le_moment (hpos : 0 < timeoutMs) (htimer : moment cancelAt ≤ timeoutMs)
    (hfetch : moment cancelAt ≤ moment (ending.map Prod.fst)) :
    ∃ c ∈ cancelAt, race cancelAt timeoutMs ending = (c, .cancelled) := by
  obtain ⟨c, rfl, hc⟩ := moment_le_iff.mp htimer
  refine ⟨c, rfl, race_of_signal hpos hc fun e he => ?_⟩
  exact le_moment_iff.mp hfetch e.1 (Option.mem_map_of_mem Prod.fst he)

/-- The timer decides the race if it comes before the signal, and no later than the end of the
fetch. -/
theorem race_of_timer_le_moment (hpos : 0 < timeoutMs) (hsignal : timeoutMs < moment cancelAt)
    (hfetch : timeoutMs ≤ moment (ending.map Prod.fst)) :
    race cancelAt timeoutMs ending = (timeoutMs, .timedOut) := by
  refine race_of_timer hpos (lt_moment_iff.mp hsignal) fun e he => ?_
  exact le_moment_iff.mp hfetch e.1 (Option.mem_map_of_mem Prod.fst he)

/-- The fetch decides the race if it ends before the signal and the timer. -/
theorem race_of_moment_lt (hsignal : moment (ending.map Prod.fst) < moment cancelAt)
    (htimer : moment (ending.map Prod.fst) < timeoutMs) :
    ∃ e ∈ ending, race cancelAt timeoutMs ending = (e.1, .fetched e.2) := by
  obtain ⟨t, he, -⟩ := moment_le_iff.mp htimer.le
  obtain ⟨⟨r, result⟩, rfl, rfl⟩ := Option.map_eq_some_iff.mp he
  refine ⟨_, rfl, Prober.race_of_lt ?_ (lt_moment_iff.mp hsignal)⟩
  exact Nat.lt_of_lt_of_le (ENat.natCast_lt_natCast.mp htimer) (Nat.le_max_left timeoutMs 1)

/-- A signal that is not the first of three is later than the earlier of the two others. -/
theorem min_lt_of_not_first {c d r : ℕ∞} (hnot : ¬ (c ≤ d ∧ c ≤ r)) : min d r < c := by
  rw [← le_min_iff] at hnot
  exact not_le.mp hnot

/-- A race ends at the first of the moments of the signal, of the timer and of the end of the
fetch. -/
theorem race_fst (hpos : 0 < timeoutMs) (cancelAt : Option Nat) (ending : Option (Nat × α)) :
    ((race cancelAt timeoutMs ending).1 : ℕ∞) =
      min (moment cancelAt) (min timeoutMs (moment (ending.map Prod.fst))) := by
  by_cases hsignal : moment cancelAt ≤ min (timeoutMs : ℕ∞) (moment (ending.map Prod.fst))
  · obtain ⟨htimer, hfetch⟩ := le_min_iff.mp hsignal
    obtain ⟨c, rfl, hrace⟩ := race_of_le_moment hpos htimer hfetch
    rw [min_eq_left hsignal, hrace]
    rfl
  · have hlate := not_le.mp hsignal
    rw [min_eq_right hlate.le]
    by_cases htimer : timeoutMs ≤ moment (ending.map Prod.fst)
    · rw [min_eq_left htimer] at hlate ⊢
      rw [race_of_timer_le_moment hpos hlate htimer]
    · have hfetch := not_le.mp htimer
      rw [min_eq_right hfetch.le] at hlate ⊢
      obtain ⟨e, rfl, hrace⟩ := race_of_moment_lt hlate hfetch
      rw [hrace]
      rfl

variable {fired : Nat → Bool} {t : Nat}

/-- A look finds nothing before the timer and the end of the fetch, while no signal has fired. -/
theorem look_of_lt (hquiet : fired t = false) (htimer : t < timeoutMs)
    (hfetch : ∀ e ∈ ending, t < e.1) : look fired timeoutMs ending t = none := by
  have hfilter : ending.filter (·.1 ≤ t) = none := by
    rw [Option.filter_eq_none_iff]
    intro e he
    simpa using hfetch e he
  simp [look, hquiet, htimer, hfilter]

/-- A look finds the timer when it has fired, while no signal has. -/
theorem look_of_timer (hquiet : fired t = false) (htimer : timeoutMs ≤ t) :
    look fired timeoutMs ending t = some .timedOut := by
  simp [look, hquiet, htimer]

/-- A look finds that the fetch has ended before the timer, while no signal has fired. -/
theorem look_of_fetch {r : Nat} {result : α} (hquiet : fired r = false) (htimer : r < timeoutMs) :
    look fired timeoutMs (some (r, result)) r = some (.fetched result) := by
  simp [look, hquiet, Nat.not_le.mpr htimer, Option.filter]

/-- A race without a signal is decided by the first look that finds more than a signal. -/
theorem look_race_none (hpos : 0 < timeoutMs) (fired : Nat → Bool) (ending : Option (Nat × α)) :
    (fired (race none timeoutMs ending).1 = false →
      look fired timeoutMs ending (race none timeoutMs ending).1 =
        some (race none timeoutMs ending).2) ∧
    ∀ t < (race none timeoutMs ending).1, fired t = false →
      look fired timeoutMs ending t = none := by
  by_cases hfetch : ∀ e ∈ ending, timeoutMs ≤ e.1
  · have hdecided : race none timeoutMs ending = (timeoutMs, .timedOut) :=
      race_of_timer hpos (by simp) hfetch
    rw [hdecided]
    refine ⟨fun hquiet => look_of_timer hquiet (Nat.le_refl _), fun t ht hquiet => ?_⟩
    exact look_of_lt hquiet ht fun e he => Nat.lt_of_lt_of_le ht (hfetch e he)
  · push Not at hfetch
    obtain ⟨⟨r, result⟩, rfl, hr⟩ := hfetch
    have hdecided : race none timeoutMs (some (r, result)) = (r, .fetched result) :=
      Prober.race_of_lt (Nat.lt_of_lt_of_le hr (Nat.le_max_left timeoutMs 1)) (by simp)
    rw [hdecided]
    refine ⟨fun hquiet => look_of_fetch hquiet hr, fun t ht hquiet => ?_⟩
    exact look_of_lt hquiet (Nat.lt_trans ht hr) fun e he => by
      obtain rfl := Option.mem_some.mp he
      exact ht

/-- A race is decided by the first look that finds something. -/
theorem look_race (hpos : 0 < timeoutMs) (hfires : Fires fired cancelAt)
    (ending : Option (Nat × α)) :
    look fired timeoutMs ending (race cancelAt timeoutMs ending).1 =
      some (race cancelAt timeoutMs ending).2 ∧
    ∀ t < (race cancelAt timeoutMs ending).1, look fired timeoutMs ending t = none := by
  obtain ⟨hfinds, hbefore⟩ := look_race_none hpos fired ending
  cases hfires with
  | never hquiet => exact ⟨hfinds (hquiet _), fun t ht => hbefore t ht (hquiet t)⟩
  | @since c hfired hquiet =>
    rw [Prober.race_some]
    split
    next hc =>
      refine ⟨by simp [look, hfired], fun t ht => ?_⟩
      exact hbefore t (Nat.lt_of_lt_of_le ht hc) (hquiet t ht)
    next hc =>
      refine ⟨hfinds (hquiet _ (by omega)), fun t ht => ?_⟩
      exact hbefore t ht (hquiet t (by omega))

end Race

namespace Prober

/-- **One race decides a probe.** Whatever the parts of the fetch are, and whenever the signal
fires: the probe ends at the first of the moments of its signal, of its timer and of the end of all
the parts. It is cancelled if the signal comes no later than both of the others, else timed out if
the timer comes no later than the end of the fetch, and else reports what the fetch came to. It asks
nothing if the signal fired before it started. A signal of any handle decides it at the first look
that finds something, and one of no handle never fires. -/
theorem http_decided_by_first (network : Network) {timeoutMs : Nat} (hpos : 0 < timeoutMs)
    (name uri : String) (start : Nat) (cancelAt : Option Nat) :
    let run := http network timeoutMs name uri start cancelAt
    let elapsed := run.endsAt - start
    let c := moment (cancelAt.map (· - start))
    ∃ parts result, Fetch.Parts network uri parts result ∧
      let r := moment (result.map fun _ => parts.sum)
      ((run.endsAt : ℕ∞) = start + min c (min timeoutMs r)) ∧
      (c ≤ timeoutMs ∧ c ≤ r →
        run.outcome = .report (.unreachable name uri elapsed "Request cancelled")) ∧
      (¬ (c ≤ timeoutMs ∧ c ≤ r) → timeoutMs ≤ r →
        run.outcome = .report (.unreachable name uri timeoutMs (timeoutText timeoutMs))) ∧
      (¬ (c ≤ timeoutMs ∧ c ≤ r) → r < timeoutMs →
        ∃ x, result = some x ∧ run.outcome = .report (Fetch.report name uri parts.sum x)) ∧
      ((∃ c ∈ cancelAt, c ≤ start) → run.asked = []) ∧
      ∀ (timeline : Nat → Cancellations) (signal : Signal),
        let fired t := (timeline (start + t)).isReady signal
        Fires fired (cancelAt.map (· - start)) →
          (signal = none → c = ⊤) ∧
          (∀ t < elapsed, look fired timeoutMs (result.map (parts.sum, ·)) t = none) ∧
          ∃ decision, look fired timeoutMs (result.map (parts.sum, ·)) elapsed = some decision ∧
            run.outcome = .report (decision.report timeoutMs name uri elapsed) := by
  intro run elapsed c
  obtain ⟨parts, result, hparts⟩ := Fetch.exists_parts network uri
  refine ⟨parts, result, hparts, ?_⟩
  intro r
  set ending := result.map (parts.sum, ·) with hmap
  set decided := race (cancelAt.map (· - start)) timeoutMs ending with hdecided
  have hrun : run = http network timeoutMs name uri start cancelAt := rfl
  simp only [http, hparts.ending_eq, ← hmap, ← hdecided] at hrun
  have helapsed : elapsed = decided.1 := by
    show run.endsAt - start = _
    rw [hrun]
    exact Nat.add_sub_cancel_left start decided.1
  have houtcome : run.outcome = .report (decided.2.report timeoutMs name uri elapsed) := by
    rw [helapsed, hrun]
    rfl
  have hasked : (∃ c ∈ cancelAt, c ≤ start) → run.asked = [] := by
    rintro ⟨t, rfl, ht⟩
    rcases (heedsSignal_http network timeoutMs).signal name uri start t with ⟨hlt, -⟩ | ⟨-, h⟩
    · omega
    · exact h.asked ht
  have hends : (run.endsAt : ℕ∞) = start + (decided.1 : ℕ∞) := by
    rw [hrun]
    exact Nat.cast_add start decided.1
  have hr : r = moment (ending.map Prod.fst) := by
    rw [hmap, Option.map_map]
    rfl
  refine ⟨?_, ?_, ?_, ?_, hasked, ?_⟩
  · rw [hends, hdecided, race_fst hpos, ← hr]
  · rintro ⟨htimer, hfetch⟩
    obtain ⟨_, -, hrace⟩ := race_of_le_moment hpos htimer (hr ▸ hfetch)
    rw [houtcome, hdecided, hrace]
    rfl
  · intro hnot htimer
    have hlate := min_lt_of_not_first hnot
    rw [min_eq_left htimer] at hlate
    have hrace := race_of_timer_le_moment hpos hlate (hr ▸ htimer)
    rw [houtcome, helapsed, hdecided, hrace]
    rfl
  · intro hnot hfetch
    have hlate := min_lt_of_not_first hnot
    rw [min_eq_right hfetch.le] at hlate
    obtain ⟨e, he, hrace⟩ := race_of_moment_lt (hr ▸ hlate) (hr ▸ hfetch)
    obtain ⟨x, hx, rfl⟩ := Option.map_eq_some_iff.mp he
    refine ⟨x, hx, ?_⟩
    rw [houtcome, helapsed, hdecided, hrace]
    cases x <;> rfl
  · intro timeline signal fired hfires
    obtain ⟨hfinds, hbefore⟩ := look_race hpos hfires ending
    rw [← hdecided, ← helapsed] at hfinds hbefore
    refine ⟨?_, hbefore, _, hfinds, houtcome⟩
    rintro rfl
    have hnever : cancelAt.map (· - start) = none := hfires.eq_none fun _ => rfl
    show moment (cancelAt.map (· - start)) = ⊤
    rw [hnever]
    rfl

/-- A redirection, the answer behind it and its body, three tenths of a second each: no part is as
long as the timer of seven tenths, but all of them together are longer. The signal of a handle that
is cancelled when the timer fires wins, and no look before that finds anything; a timer a
millisecond longer than the fetch lets the fetch decide. -/
theorem http_decided_by_first_of_redirection :
    let network : Network := .ofExchanges [
      .answer 300 ⟨⟨302, by decide, by decide⟩, [("Location", "/b")]⟩ (.complete 0 []),
      .answer 300 ⟨⟨503, by decide, by decide⟩, []⟩ (.complete 300 "busy".toUTF8.data.toList)]
    let probe timeoutMs := http network timeoutMs "a" "http://a/"
    let answer : Except FetchError Answer := .ok ⟨⟨503, by decide, by decide⟩, "busy"⟩
    let timeline t : Cancellations := ⟨[{ cancelled := decide (700 ≤ t) }], [some 0], []⟩
    let fired t := (timeline t).isReady (some 0)
    (probe 700 0 none).endsAt = 700 ∧
    (probe 700 0 none).outcome =
      .report (.unreachable "a" "http://a/" 700 "Timeout after 0.7 seconds") ∧
    ((probe 700 0 (some 700)).outcome =
        .report (.unreachable "a" "http://a/" 700 "Request cancelled") ∧
      ∀ t < 700, look fired 700 (some (900, answer)) t = none) ∧
    (probe 901 0 none).outcome =
      .report ⟨"a", "http://a/", .ofHealth .unhealthy, 900, some "busy"⟩ ∧
    (probe 700 5 (some 3)).asked = [] := by
  intro network probe answer timeline fired
  have hending : (Fetch.ofUri network "http://a/").ending = some (900, answer) := by decide +kernel
  have hparts {parts result} (h : Fetch.Parts network "http://a/" parts result) :
      parts.sum = 900 ∧ result = some answer := by
    obtain ⟨x, rfl, hx⟩ := Option.map_eq_some_iff.mp (h.ending_eq.symm.trans hending)
    obtain ⟨hsum, rfl⟩ := Prod.mk.inj hx
    exact ⟨hsum, rfl⟩
  refine ⟨?_, ?_, ?_, ?_, ?_⟩
  · obtain ⟨parts, result, h, hends, -⟩ :=
      http_decided_by_first network (show 0 < 700 by decide) "a" "http://a/" 0 none
    obtain ⟨hsum, rfl⟩ := hparts h
    have hends : ((http network 700 "a" "http://a/" 0 none).endsAt : ℕ∞) = 700 := by
      rw [hends, Option.map_some, hsum]
      decide
    exact_mod_cast hends
  · obtain ⟨parts, result, h, -, -, htimer, -⟩ :=
      http_decided_by_first network (show 0 < 700 by decide) "a" "http://a/" 0 none
    obtain ⟨hsum, rfl⟩ := hparts h
    rw [Option.map_some, hsum] at htimer
    have htext : timeoutText 700 = "Timeout after 0.7 seconds" := by decide +kernel
    rw [← htext]
    exact htimer (by decide) (by decide)
  · obtain ⟨parts, result, h, hends, hsignal, -, -, -, hlooks⟩ :=
      http_decided_by_first network (show 0 < 700 by decide) "a" "http://a/" 0 (some 700)
    obtain ⟨hsum, rfl⟩ := hparts h
    rw [Option.map_some, Option.map_some, hsum] at hends hsignal
    have hfires : Fires (fun t => (timeline (0 + t)).isReady (some 0)) (some 700) := by
      refine .since (by decide) fun t ht => ?_
      simp [timeline, Cancellations.isReady, Cancellations.channel?, Channel.isReady, ht]
    obtain ⟨-, hbefore, -⟩ := hlooks timeline (some 0) hfires
    have hends : ((http network 700 "a" "http://a/" 0 (some 700)).endsAt : ℕ∞) = 700 := by
      rw [hends]
      decide
    have hends : (http network 700 "a" "http://a/" 0 (some 700)).endsAt = 700 := by
      exact_mod_cast hends
    have houtcome := hsignal (by decide)
    rw [hends] at houtcome hbefore
    rw [Option.map_some, hsum] at hbefore
    simp only [Nat.zero_add] at hbefore
    exact ⟨houtcome, hbefore⟩
  · obtain ⟨parts, result, h, -, -, -, hfetch, -⟩ :=
      http_decided_by_first network (show 0 < 901 by decide) "a" "http://a/" 0 none
    obtain ⟨hsum, rfl⟩ := hparts h
    rw [Option.map_some, hsum] at hfetch
    obtain ⟨x, hx, houtcome⟩ := hfetch (by decide) (by decide)
    obtain rfl := Option.some.inj hx
    refine houtcome.trans ?_
    have hstatus : classify ⟨503, by decide, by decide⟩ "busy" = .ofHealth .unhealthy := by
      decide +kernel
    rw [Fetch.report, hstatus]
  · obtain ⟨_, _, _, -, -, -, -, hasked, -⟩ :=
      http_decided_by_first network (show 0 < 700 by decide) "a" "http://a/" 5 (some 3)
    exact hasked ⟨3, rfl, by decide⟩

end Prober

end ServiceHealth
