import Mathlib.Data.List.Induction
import ServiceHealth.Program
import ServiceHealth.Proofs.Server.Flight

/-!
# The end of the program

A program serves connections that it has accepted, each on a task of its own, and one more task
accepts them until it sees that a signal has come. Then it returns, and with it the program, whose
tasks are dropped wherever they wait: nobody has waited for the connections. So the end comes at the
first turn of that task behind the signal that looks at it, and what is not answered by then stays
without an answer.

Requests on one connection are answered one after another, in the order in which they were received.

## Main definitions

* `AcceptedConnection`, `AcceptedConnection.unanswered` — a connection, and what is owed to it.
* `Process`, `Process.Event`, `Process.react`, `Process.during` — the program with its connections,
  what happens to it, and all that happens from its start.
* `Process.Sound` — the invariant.

## Main results

* `Process.exists_stop_of_hasEnded` — the turn at which a program has ended.
* `Process.unanswered_at_end` — the requests that are not answered when it has ended.
-/

namespace ServiceHealth

open Server

/-! ### Connections -/

/-- A connection that was accepted: the requests that were received on it, the answers that were
written to it, and the request that is being answered, if there is one. -/
structure AcceptedConnection where
  received : List Request := []
  written : List Response := []
  flight : Option Flight := none

namespace AcceptedConnection

/-- The requests that were received and not answered. -/
def unanswered (c : AcceptedConnection) : List Request := c.received.drop c.written.length

/-- A turn of the task of a connection, with the service that all connections share. The next
request is begun, or that which is being answered has a turn and its answer, once there is one, is
written. -/
def turn (h : Handler) (v : Service) (now : Nat) (c : AcceptedConnection) :
    Service × AcceptedConnection :=
  match c.received[c.written.length]?, c.flight with
  | none, _ => (v, c)
  | some r, none => (v, { c with flight := some (.start v r) })
  | some r, some f =>
    let f := { f with service := v }.advance h now
    match f.standing with
    | .answered response =>
      (f.service, { c with written := c.written ++ [response.sentFor r.method], flight := none })
    | _ => (f.service, { c with flight := some f })

/-- The task of the connection is dropped, and the request that it is answering. -/
def close (c : AcceptedConnection) : AcceptedConnection :=
  { c with flight := c.flight.map Flight.abandon }

/-- What is true of a connection: no more answers were written than requests received, and a request
that is being answered is owed an answer. -/
structure Sound (c : AcceptedConnection) : Prop where
  written_le : c.written.length ≤ c.received.length
  flight : c.flight.isSome = true → c.unanswered ≠ []

variable {c : AcceptedConnection}

/-- Closing a connection answers nothing. -/
theorem unanswered_close (c : AcceptedConnection) : c.close.unanswered = c.unanswered := rfl

/-- A connection on which nothing was received yet. -/
theorem sound_empty : Sound {} where
  written_le := Nat.le_refl 0
  flight h := absurd h (by decide)

/-- Another request keeps what is true of a connection. -/
theorem Sound.receive (h : c.Sound) (r : Request) :
    Sound { c with received := c.received ++ [r] } := by
  have hle := h.written_le
  refine ⟨by simp only [List.length_append]; omega, fun _ => ?_⟩
  rw [unanswered, List.drop_append_of_le_length hle]
  simp

/-- Whatever becomes of the request that is being answered, there is no other one. -/
theorem Sound.map_flight (h : c.Sound) (react : Flight → Flight) :
    Sound { c with flight := c.flight.map react } where
  written_le := h.written_le
  flight hsome := h.flight (by simpa using hsome)

/-- Closing a connection keeps what is true of it. -/
theorem Sound.close (h : c.Sound) : c.close.Sound := h.map_flight Flight.abandon

/-- A turn of the task of a connection keeps what is true of it. -/
theorem Sound.turn (hc : c.Sound) (h : Handler) (v : Service) (now : Nat) :
    (c.turn h v now).2.Sound := by
  obtain ⟨received, written, flight⟩ := c
  have hle := hc.written_le
  rw [AcceptedConnection.turn]
  split
  next => exact hc
  next r hnext hnone =>
    have hlt : written.length < received.length := (List.getElem?_eq_some_iff.mp hnext).1
    refine ⟨hle, fun _ => ?_⟩
    rw [unanswered, Ne, List.drop_eq_nil_iff]
    exact Nat.not_le.mpr hlt
  next r f hnext hsome =>
    have hlt : written.length < received.length := (List.getElem?_eq_some_iff.mp hnext).1
    dsimp only
    split
    next response _ =>
      refine ⟨?_, fun h => absurd h (by simp)⟩
      simp only [List.length_append, List.length_singleton]
      omega
    next =>
      refine ⟨hle, fun _ => ?_⟩
      rw [unanswered, Ne, List.drop_eq_nil_iff]
      exact Nat.not_le.mpr hlt

end AcceptedConnection

/-! ### The program -/

/-- A program with the connections that it has accepted: whether a signal to end has come, and
whether it has ended. -/
structure Process where
  program : Program
  connections : List AcceptedConnection := []
  signalled : Bool := false
  hasEnded : Bool := false

namespace Process

/-- What happens: a connection is accepted, a request is received on one, the task of a connection
has a turn or a probe of the request that it is answering, the file is loaded again, a signal to end
comes, or the task that accepts connections looks whether one has. -/
inductive Event
  | accept
  | receive (i : Nat) (r : Request)
  | turn (i now : Nat)
  | probe (i j : Nat) (t : Turn)
  | hangup (content : Option ByteArray)
  | signal
  | stop

/-- The task of connection `i` has a turn. -/
def turn (network : Net.Network) (clock : Nat → Timestamp) (x : Process) (i now : Nat) : Process :=
  match x.connections[i]? with
  | none => x
  | some c =>
    let (service, c) := c.turn (x.program.handler network clock) x.program.service now
    { x with program := { x.program with service }, connections := x.connections.set i c }

/-- One event while the program runs. -/
def step (network : Net.Network) (clock : Nat → Timestamp) (x : Process) : Event → Process
  | .accept => { x with connections := x.connections ++ [{}] }
  | .receive i r =>
    { x with connections := x.connections.modify i fun c =>
        { c with received := c.received ++ [r] } }
  | .turn i now => x.turn network clock i now
  | .probe i j t =>
    { x with connections := x.connections.modify i fun c =>
        { c with flight := c.flight.map (·.react (x.program.handler network clock) (.turn j t)) } }
  | .hangup content => { x with program := (x.program.reload content).2 }
  | .signal => { x with signalled := true }
  | .stop =>
    if x.signalled then
      { x with connections := x.connections.map AcceptedConnection.close, hasEnded := true }
    else x

/-- One event. Nothing happens to a program that has ended. -/
def react (network : Net.Network) (clock : Nat → Timestamp) (x : Process) (e : Event) : Process :=
  if x.hasEnded then x else x.step network clock e

/-- All that happens from the start of a program. -/
def during (network : Net.Network) (clock : Nat → Timestamp) (p : Program) (events : List Event) :
    Process :=
  events.foldl (react network clock) ⟨p, [], false, false⟩

/-- The requests on each connection that were received and not answered. -/
def unanswered (x : Process) : List (List Request) := x.connections.map (·.unanswered)

variable {network : Net.Network} {clock : Nat → Timestamp} {x : Process}

/-! ### The invariant -/

/-- What is true of a program: of each of its connections, and that it has ended only if a signal
has come. -/
structure Sound (x : Process) : Prop where
  connections : ∀ c ∈ x.connections, c.Sound
  signalled : x.hasEnded = true → x.signalled = true

/-- A change of one connection that keeps what is true of it keeps what is true of all. -/
theorem forall_sound_modify {cs : List AcceptedConnection} (hcs : ∀ c ∈ cs, c.Sound)
    {change : AcceptedConnection → AcceptedConnection} (hchange : ∀ c, c.Sound → (change c).Sound)
    (i : Nat) : ∀ c ∈ cs.modify i change, c.Sound := by
  intro c hc
  obtain ⟨j, hj⟩ := List.mem_iff_getElem?.mp hc
  rw [List.getElem?_modify] at hj
  obtain ⟨c', hc', rfl⟩ := Option.map_eq_some_iff.mp hj
  have hsound := hcs c' (List.mem_of_getElem? hc')
  split
  · exact hchange c' hsound
  · exact hsound

/-- An event while the program runs keeps what is true of it. -/
theorem Sound.step (hx : x.Sound) (e : Event) : (x.step network clock e).Sound := by
  cases e with
  | accept =>
    refine ⟨fun c hc => ?_, hx.signalled⟩
    rcases List.mem_append.mp hc with hc | hc
    · exact hx.connections c hc
    · exact List.mem_singleton.mp hc ▸ AcceptedConnection.sound_empty
  | receive i r =>
    exact ⟨forall_sound_modify hx.connections (fun c h => h.receive r) i, hx.signalled⟩
  | turn i now =>
    rw [Process.step, Process.turn]
    split
    next => exact hx
    next c hc =>
      refine ⟨fun c' hc' => ?_, hx.signalled⟩
      rcases List.mem_or_eq_of_mem_set hc' with hc' | rfl
      · exact hx.connections c' hc'
      · exact (hx.connections c (List.mem_of_getElem? hc)).turn _ _ now
  | probe i j t =>
    exact ⟨forall_sound_modify hx.connections (fun c h => h.map_flight _) i, hx.signalled⟩
  | hangup content => exact ⟨hx.connections, hx.signalled⟩
  | signal => exact ⟨hx.connections, fun _ => rfl⟩
  | stop =>
    rw [Process.step]
    split
    next hsignalled =>
      refine ⟨fun c hc => ?_, fun _ => hsignalled⟩
      obtain ⟨c', hc', rfl⟩ := List.mem_map.mp hc
      exact (hx.connections c' hc').close
    next => exact hx

/-- **Step.** An event keeps what is true of a program. -/
theorem Sound.react (hx : x.Sound) (e : Event) : (x.react network clock e).Sound := by
  rw [Process.react]
  split
  next => exact hx
  next => exact hx.step e

/-- **Run.** It is true of a program at every point from its start on. -/
theorem sound_during (network : Net.Network) (clock : Nat → Timestamp) (p : Program)
    (events : List Event) : (during network clock p events).Sound := by
  induction events using List.reverseRecOn with
  | nil => exact ⟨fun c hc => absurd hc List.not_mem_nil, fun h => absurd h Bool.false_ne_true⟩
  | append_singleton events e ih =>
    rw [during, List.foldl_append]
    exact ih.react e

/-! ### The end -/

/-- Nothing happens to a program that has ended. -/
theorem foldl_react_of_hasEnded (h : x.hasEnded = true) (events : List Event) :
    events.foldl (react network clock) x = x := by
  induction events with
  | nil => rfl
  | cons e events ih => rwa [List.foldl_cons, react, if_pos h]

/-- Once a signal has come, the task that accepts connections ends the program at its next look. -/
theorem react_stop (hrunning : x.hasEnded = false) (hsignalled : x.signalled = true) :
    x.react network clock .stop =
      { x with connections := x.connections.map AcceptedConnection.close, hasEnded := true } := by
  rw [react, if_neg (Bool.eq_false_iff.mp hrunning), step, if_pos hsignalled]

/-- What an event does to the end of a program and to the signal: it is that look behind a signal,
or it ends nothing and makes a signal have come only if it is one. -/
theorem step_cases (network : Net.Network) (clock : Nat → Timestamp) (x : Process) (e : Event) :
    (e = .stop ∧ x.signalled = true) ∨ ((x.step network clock e).hasEnded = x.hasEnded ∧
      ((x.step network clock e).signalled = x.signalled ∨ e = .signal)) := by
  cases e with
  | stop =>
    by_cases hsignalled : x.signalled = true
    · exact .inl ⟨rfl, hsignalled⟩
    · rw [step, if_neg hsignalled]
      exact .inr ⟨rfl, .inl rfl⟩
  | turn i now =>
    rw [step, turn]
    split <;> exact .inr ⟨rfl, .inl rfl⟩
  | signal => exact .inr ⟨rfl, .inr rfl⟩
  | _ => exact .inr ⟨rfl, .inl rfl⟩

/-- Only that look ends a program. -/
theorem eq_stop_of_hasEnded_react {e : Event} (hrunning : x.hasEnded = false)
    (hended : (x.react network clock e).hasEnded = true) : e = .stop ∧ x.signalled = true := by
  rw [react, if_neg (Bool.eq_false_iff.mp hrunning)] at hended
  rcases step_cases network clock x e with hstop | ⟨hkept, -⟩
  · exact hstop
  · rw [hkept, hrunning] at hended
    exact absurd hended Bool.false_ne_true

/-- Only a signal makes one have come. -/
theorem signalled_react {e : Event} (h : (x.react network clock e).signalled = true) :
    x.signalled = true ∨ e = .signal := by
  rw [react] at h
  split at h
  next => exact .inl h
  next =>
    rcases step_cases network clock x e with ⟨-, hsignalled⟩ | ⟨-, hkept | hsignal⟩
    · exact .inl hsignalled
    · exact .inl (hkept ▸ h)
    · exact .inr hsignal

/-- A signal has come only if it was among what happened. -/
theorem signal_mem_of_signalled {p : Program} {events : List Event}
    (h : (during network clock p events).signalled = true) : Event.signal ∈ events := by
  induction events using List.reverseRecOn with
  | nil => exact absurd h Bool.false_ne_true
  | append_singleton events e ih =>
    rw [during, List.foldl_append] at h
    rcases signalled_react h with hbefore | rfl
    · exact List.mem_append_left _ (ih hbefore)
    · exact List.mem_append_right _ (List.mem_singleton_self _)

/-- What is owed stays owed at the end. -/
theorem unanswered_close (x : Process) :
    unanswered { x with
        connections := x.connections.map AcceptedConnection.close
        hasEnded := true } = x.unanswered := by
  simp [unanswered, AcceptedConnection.unanswered_close]

/-- **Run.** A program that has ended did so at a look behind a signal. -/
theorem exists_stop_of_hasEnded {p : Program} {events : List Event}
    (h : (during network clock p events).hasEnded = true) :
    ∃ before after, events = before ++ .stop :: after ∧
      (during network clock p before).hasEnded = false ∧
      (during network clock p before).signalled = true ∧
      during network clock p events =
        (during network clock p before).react network clock .stop := by
  induction events using List.reverseRecOn with
  | nil => exact absurd h Bool.false_ne_true
  | append_singleton events e ih =>
    have hlast : during network clock p (events ++ [e]) =
        (during network clock p events).react network clock e := List.foldl_append
    cases hended : (during network clock p events).hasEnded with
    | true =>
      obtain ⟨before, after, hsplit, hrunning, hsignalled, hstop⟩ := ih hended
      refine ⟨before, after ++ [e], by simp [hsplit], hrunning, hsignalled, ?_⟩
      rw [hlast, ← hstop, react, if_pos hended]
    | false =>
      rw [hlast] at h
      obtain ⟨rfl, hsignalled⟩ := eq_stop_of_hasEnded_react hended h
      exact ⟨events, [], rfl, hended, hsignalled, hlast⟩

/-- Every request that was received on a connection is answered. -/
def AllAnswered (x : Process) : Prop := ∀ c ∈ x.connections, c.unanswered = []

/-- All requests are answered just when none is owed an answer. -/
theorem allAnswered_iff : x.AllAnswered ↔ ∀ owed ∈ x.unanswered, owed = [] := by
  rw [AllAnswered, unanswered, List.forall_mem_map]

/-- **The end waits for no answer.** At every point of every run no connection has more answers than
requests. A program that has ended did so at a look of the task that accepts connections behind a
signal, and the requests that are not answered are those that were not at that look: so all of them
are answered just when all of them were by then. And whatever is owed at a point at which the
program runs, a signal and that look end it there, and it stays owed whatever happens then: any
request that is just being answered is lost. -/
theorem unanswered_at_end (p : Program) (network : Net.Network) (clock : Nat → Timestamp)
    (events : List Event) :
    let x := during network clock p events
    (∀ c ∈ x.connections, c.written.length ≤ c.received.length) ∧
    (x.hasEnded = true → ∃ before after, events = before ++ .stop :: after ∧ .signal ∈ before ∧
      let y := during network clock p before
      y.hasEnded = false ∧ x.unanswered = y.unanswered ∧ (x.AllAnswered ↔ y.AllAnswered)) ∧
    (x.hasEnded = false → ∀ more,
      let z := during network clock p (events ++ .signal :: .stop :: more)
      z.hasEnded = true ∧ z.unanswered = x.unanswered ∧ (z.AllAnswered ↔ x.AllAnswered) ∧
      ((∃ c ∈ x.connections, c.flight.isSome = true) → ¬ z.AllAnswered)) := by
  intro x
  have hsound : x.Sound := sound_during network clock p events
  refine ⟨fun c hc => (hsound.connections c hc).written_le, ?_, ?_⟩
  · intro hended
    obtain ⟨before, after, hsplit, hrunning, hsignalled, hstop⟩ := exists_stop_of_hasEnded hended
    have howed : x.unanswered = (during network clock p before).unanswered := by
      rw [show x = during network clock p events from rfl, hstop, react_stop hrunning hsignalled,
        unanswered_close]
    refine ⟨before, after, hsplit, signal_mem_of_signalled hsignalled, hrunning, howed, ?_⟩
    rw [allAnswered_iff, allAnswered_iff, howed]
  · intro hrunning more z
    have hsignal : x.react network clock .signal = { x with signalled := true } := by
      rw [react, if_neg (Bool.eq_false_iff.mp hrunning)]
      rfl
    have hend : z = { x with
        connections := x.connections.map AcceptedConnection.close
        signalled := true
        hasEnded := true } := by
      have hmore : z = (.signal :: .stop :: more).foldl (react network clock) x := List.foldl_append
      rw [hmore, List.foldl_cons, List.foldl_cons, hsignal,
        react_stop (x := { x with signalled := true }) hrunning rfl]
      exact foldl_react_of_hasEnded rfl more
    have howed : z.unanswered = x.unanswered := by
      rw [hend]
      exact unanswered_close { x with signalled := true }
    have hiff : z.AllAnswered ↔ x.AllAnswered := by rw [allAnswered_iff, allAnswered_iff, howed]
    refine ⟨by rw [hend], howed, hiff, ?_⟩
    rintro ⟨c, hc, hflight⟩ hall
    exact (hsound.connections c hc).flight hflight (hiff.mp hall c hc)

/-- The program whose file registers one member of one application. -/
def oneMember : Program :=
  let s : Settings := { healthChecks := [⟨"a", "http://a/"⟩], applications := [⟨"A", ["a"]⟩] }
  ⟨"config.json", s, .ofSettings s false⟩

/-- Two clients: the request of the first one is for no route and is answered at once, that of the
second one asks for all applications, and its probe has been dispatched. -/
def twoClients : List Event :=
  [.accept, .accept, .receive 0 ⟨.get, ⟨"/"⟩⟩, .receive 1 ⟨.get, ⟨"/api/health/applications"⟩⟩,
    .turn 0 0, .turn 0 0, .turn 1 0, .turn 1 0, .turn 1 0, .probe 1 0 { now := 0 }]

/-- The program ends, by a hangup later than the signal, with one answer written and one owed. -/
theorem unanswered_at_end_of_two_clients :
    let request : Request := ⟨.get, ⟨"/api/health/applications"⟩⟩
    let x := during .silent (fun _ => default) oneMember
      (twoClients ++ [.signal, .hangup none, .stop, .turn 1 1])
    let z := during .silent (fun _ => default) oneMember
      (twoClients ++ .signal :: .stop :: [.turn 1 1])
    x.hasEnded = true ∧ ¬ x.AllAnswered ∧
    (∃ before after, twoClients ++ [.signal, .hangup none, .stop, .turn 1 1] =
        before ++ .stop :: after ∧ x.unanswered =
          (during .silent (fun _ => default) oneMember before).unanswered) ∧
    z.hasEnded = true ∧ z.unanswered = [[], [request]] := by
  intro request x z
  have hended : x.hasEnded = true := by decide +kernel
  obtain ⟨-, hatEnd, -⟩ := unanswered_at_end oneMember .silent (fun _ => default)
    (twoClients ++ [.signal, .hangup none, .stop, .turn 1 1])
  obtain ⟨before, after, hsplit, -, -, howed, -⟩ := hatEnd hended
  have howes : ¬ x.AllAnswered := by
    rw [allAnswered_iff]
    decide +kernel
  obtain ⟨-, -, hanytime⟩ := unanswered_at_end oneMember .silent (fun _ => default) twoClients
  have hrunning : (during .silent (fun _ => default) oneMember twoClients).hasEnded = false := by
    decide +kernel
  obtain ⟨hends, hstays, -⟩ := hanytime hrunning [.turn 1 1]
  refine ⟨hended, howes, ⟨before, after, hsplit, howed⟩, hends, hstays.trans ?_⟩
  decide +kernel

/-- A signal comes while a request is waiting for its probe: the program ends, and the request is
never answered, although its probe would have returned five seconds later and the answer would have
been written. -/
theorem request_lost_at_shutdown :
    let request : Request := ⟨.get, ⟨"/api/health/applications"⟩⟩
    let report : MemberReport := ⟨"a", "http://a/", ⟨"Healthy"⟩, 5000, none⟩
    let answer : List Event :=
      [.probe 1 0 { now := 5000, ends := some (.report report) }, .turn 1 5000]
    let run := during .silent (fun _ => default) oneMember
    (run (twoClients ++ [.signal, .stop])).hasEnded = true ∧
    (run (twoClients ++ [.signal, .stop])).unanswered = [[], [request]] ∧
    (run (twoClients ++ .signal :: .stop :: answer)).unanswered = [[], [request]] ∧
    (run (twoClients ++ .signal :: answer)).unanswered = [[], []] := by
  decide +kernel

end Process

end ServiceHealth
