import Mathlib.Data.List.Basic
import ServiceHealth.Proofs.Cancel

/-!
# Signals and the handles they descend from

Handles are made, cancelled and dropped, signals are cloned, and tasks begin to wait for them, in
any order; the tasks have their turns in any order too, between any two of these and between the
two halves of dropping a handle. Beside the channels stands what an onlooker writes down: which
signal was cloned from which, and which handles were cancelled or dropped. One waiter and its
channel are looked at on their own: `Phase.Sound` says that a waiter ends only when true is stored
and never waits behind the change that stored it, and `Phase.Sound.mono` and `Phase.Sound.next` that
neither a change of the channel nor a step of the waiter breaks this.

## Main definitions

* `Cancellations.Event`, `Cancellations.react`, `Cancellations.during` — what happens, and the
  handles, signals and waiters after it.
* `Origin`, `Descends`, `Cancellations.History` — where signals come from, and what has fired.
* `Phase.Sound`, `Phase.turnsLeft` — a waiter on its channel, and its way to the end.

## Main results

* `Phase.Sound.ended_iff`, `Phase.Sound.turnsLeft_next` — a waiter that can go on no more, and one
  that goes on once true is stored.
* `Cancellations.react_drop` — the two halves of dropping a handle.
* `descends_append_iff` — descent when one more signal is made.
-/

namespace ServiceHealth

/-! ### Phases -/

namespace Channel

/-- The channel closes and nothing is stored: the second half of dropping a handle. -/
def shut (c : Channel) : Channel := { c with isOpen := false }

/-- A channel has gone on: it counts no less, true stays stored, and storing it was a change. -/
structure Follows (c c' : Channel) : Prop where
  changes : c.changes ≤ c'.changes
  kept : c.cancelled = true → c'.cancelled = true
  stored : c'.cancelled = true → c.cancelled = true ∨ c.changes < c'.changes

theorem follows_send (c : Channel) : c.Follows c.send :=
  ⟨Nat.le_succ _, fun _ => rfl, fun _ => .inr (Nat.lt_succ_self _)⟩

theorem follows_shut (c : Channel) : c.Follows c.shut := ⟨Nat.le_refl _, id, Or.inl⟩

end Channel

namespace Phase

/-- What is true of a waiter on a channel: it has ended only if true is stored, and when it waits it
has not seen the change that stored it. -/
def Sound (c : Channel) : Phase → Prop
  | .reading => True
  | .waiting seen => seen ≤ c.changes ∧ (c.cancelled = true → seen < c.changes)
  | .ended => c.cancelled = true

/-- How many turns a waiter is from its end once true is stored. -/
def turnsLeft : Phase → Nat
  | .waiting _ => 2
  | .reading => 1
  | .ended => 0

variable {c c' : Channel} {p q : Phase}

theorem turnsLeft_eq_zero_iff : p.turnsLeft = 0 ↔ p = .ended := by
  cases p <;> simp [turnsLeft]

/-- A waiter stays sound while its channel goes on. -/
theorem Sound.mono (h : p.Sound c) (hc : c.Follows c') : p.Sound c' := by
  cases p with
  | reading => trivial
  | waiting seen =>
    obtain ⟨hseen, hunseen⟩ := h
    refine ⟨Nat.le_trans hseen hc.changes, fun hcancelled => ?_⟩
    rcases hc.stored hcancelled with hbefore | hchange
    · exact Nat.lt_of_lt_of_le (hunseen hbefore) hc.changes
    · exact Nat.lt_of_le_of_lt hseen hchange
  | ended => exact hc.kept h

/-- A step keeps a waiter sound, provided that true is stored before the channel closes. -/
theorem Sound.next (h : p.Sound c) (hclosed : c.isOpen = false → c.cancelled = true)
    (hq : p.next? c = some q) : q.Sound c := by
  cases p with
  | reading =>
    obtain rfl := Option.some.inj hq
    by_cases hcancelled : c.cancelled = true
    · rwa [if_pos hcancelled]
    · rw [if_neg hcancelled]
      exact ⟨Nat.le_refl _, fun h => absurd h hcancelled⟩
  | waiting seen =>
    rw [next?] at hq
    split at hq
    next =>
      obtain rfl := Option.some.inj hq
      trivial
    next =>
      split at hq
      next => simp at hq
      next hshut =>
        obtain rfl := Option.some.inj hq
        exact hclosed (by simpa using hshut)
  | ended => simp [next?] at hq

/-- Any number of steps keeps a waiter sound. -/
theorem Sound.run (h : p.Sound c) (hclosed : c.isOpen = false → c.cancelled = true)
    (fuel : Nat) : (p.run c fuel).Sound c := by
  induction fuel generalizing p with
  | zero => exact h
  | succ fuel ih =>
    rw [Phase.run]
    cases hq : p.next? c with
    | none => exact h
    | some q => exact ih (h.next hclosed hq)

/-- After four steps a waiter can go on no more. -/
theorem next?_run (c : Channel) (p : Phase) : (p.run c 4).next? c = none := by
  by_cases hcancelled : c.cancelled = true <;> by_cases hopen : c.isOpen = true <;> cases p with
  | reading => simp [Phase.run, next?, hcancelled, hopen]
  | waiting seen => by_cases hseen : c.changes = seen <;>
      simp [Phase.run, next?, hcancelled, hopen, hseen]
  | ended => simp [Phase.run, next?]

/-- A waiter that can go on no more has ended just when true is stored: no change is missed. -/
theorem Sound.ended_iff (h : p.Sound c) (hstuck : p.next? c = none) :
    p = .ended ↔ c.cancelled = true := by
  cases p with
  | reading => simp [next?] at hstuck
  | waiting seen =>
    refine iff_of_false (by simp) fun hcancelled => ?_
    have hchanges : seen < c.changes := h.2 hcancelled
    simp [next?, Nat.ne_of_gt hchanges] at hstuck
  | ended => exact iff_of_true rfl h

/-- Once true is stored every step of a waiter leads towards its end. -/
theorem Sound.turnsLeft_next (h : p.Sound c) (hcancelled : c.cancelled = true) :
    ((p.next? c).getD p).turnsLeft = p.turnsLeft - 1 := by
  cases p with
  | reading => simp [next?, hcancelled, turnsLeft]
  | waiting seen =>
    have hchanges : seen < c.changes := h.2 hcancelled
    simp [next?, Nat.ne_of_gt hchanges, turnsLeft]
  | ended => rfl

end Phase

/-! ### What happens -/

namespace Cancellations

/-- What happens. A handle is dropped at once, or in two halves with other events between them: it
is cancelled, and later its channel shuts. A turn is one step of one waiter; `settle` lets all of
them run until none can go on. -/
inductive Event
  | create
  | detach
  | clone (k : Nat)
  | wait (k : Nat)
  | cancel (h : Nat)
  | drop (h : Nat)
  | shut (h : Nat)
  | turn (w : Nat)
  | settle
  deriving DecidableEq, Repr

/-- The channel of handle `h` shuts, if true is stored in it and it is open. -/
def shut? (s : Cancellations) (h : Nat) : Option Cancellations := do
  let c ← s.channels[h]?
  if c.cancelled then s.change? Channel.shut h else none

/-- One event, if it can happen. -/
def react? (s : Cancellations) : Event → Option Cancellations
  | .create => some s.create
  | .detach => some s.detach
  | .clone k => s.clone? k
  | .wait k => s.wait? k
  | .cancel h => s.cancel? h
  | .drop h => s.drop? h
  | .shut h => s.shut? h
  | .turn w => s.stepWaiter? w
  | .settle => some s.settle

/-- One event; what cannot happen changes nothing. -/
def react (s : Cancellations) (e : Event) : Cancellations := (s.react? e).getD s

/-- All that happens from the start. -/
def during (events : List Event) : Cancellations := events.foldl react {}

/-- A change of a channel happens if the handle is alive. -/
theorem change?_eq_some_iff {s s' : Cancellations} {f : Channel → Channel} {h : Nat} :
    s.change? f h = some s' ↔ ∃ c, s.channels[h]? = some c ∧ c.isOpen = true ∧
      s' = { s with channels := s.channels.set h (f c) } := by
  simp only [change?, Option.bind_eq_bind, Option.bind_eq_some_iff]
  refine exists_congr fun c => and_congr_right fun _ => ?_
  cases c.isOpen <;> simp [eq_comm]

/-- A channel shuts if true is stored in it and it is open. -/
theorem shut?_eq_some_iff {s s' : Cancellations} {h : Nat} :
    s.shut? h = some s' ↔ ∃ c, s.channels[h]? = some c ∧ c.cancelled = true ∧ c.isOpen = true ∧
      s' = { s with channels := s.channels.set h c.shut } := by
  simp only [shut?, Option.bind_eq_bind, Option.bind_eq_some_iff]
  refine exists_congr fun c => and_congr_right fun hc => ?_
  cases c.cancelled <;> simp [change?_eq_some_iff, hc]

/-- Dropping a handle is cancelling it and then shutting its channel. -/
theorem react_drop (s : Cancellations) (h : Nat) :
    s.react (.drop h) = (s.react (.cancel h)).react (.shut h) := by
  cases hc : s.channels[h]? with
  | none => simp [react, react?, drop?, cancel?, shut?, change?, hc]
  | some c =>
    cases hopen : c.isOpen with
    | false => simp [react, react?, drop?, cancel?, shut?, change?, hc, hopen]
    | true =>
      let sent : Cancellations := { s with channels := s.channels.set h c.send }
      let dropped : Cancellations := { s with channels := s.channels.set h c.close }
      have hdrop : s.drop? h = some dropped := change?_eq_some_iff.mpr ⟨c, hc, hopen, rfl⟩
      have hcancel : s.cancel? h = some sent := change?_eq_some_iff.mpr ⟨c, hc, hopen, rfl⟩
      have hget : sent.channels[h]? = some c.send :=
        List.getElem?_set_self (List.getElem?_eq_some_iff.mp hc).1
      have hset : dropped.channels = sent.channels.set h c.send.shut := (List.set_set ..).symm
      have hshut : sent.shut? h = some dropped :=
        shut?_eq_some_iff.mpr ⟨c.send, hget, rfl, hopen, by rw [← hset]⟩
      simp only [react, react?, hdrop, hcancel, hshut, Option.getD_some]

end Cancellations

/-! ### Descent -/

/-- Where a signal comes from. -/
inductive Origin
  | handle (h : Nat)
  | detached
  | clone (parent : Nat)
  deriving DecidableEq, Repr

/-- Signal `k` is that of handle `h`, or a clone of one that descends from it. -/
inductive Descends (origins : List Origin) : (k h : Nat) → Prop
  | handle {k h} : origins[k]? = some (.handle h) → Descends origins k h
  | clone {k parent h} : origins[k]? = some (.clone parent) → Descends origins parent h →
      Descends origins k h

/-- Every clone has an earlier signal as its parent. -/
def Rooted (origins : List Origin) : Prop :=
  ∀ (k parent : Nat), origins[k]? = some (.clone parent) → parent < k

/-- The next signal, which comes from `o`, descends from handle `h`. -/
def Origin.Inherits (origins : List Origin) (h : Nat) : Origin → Prop
  | .handle h' => h = h'
  | .detached => False
  | .clone parent => Descends origins parent h

/-- An entry of a list with one more element is an old one or the last. -/
theorem getElem?_append_singleton_eq_some_iff {α : Type} {l : List α} {a b : α} {k : Nat} :
    (l ++ [a])[k]? = some b ↔ l[k]? = some b ∨ (k = l.length ∧ a = b) := by
  rcases Nat.lt_trichotomy k l.length with hlt | rfl | hgt
  · simp [List.getElem?_append_left hlt, Nat.ne_of_lt hlt]
  · simp
  · rw [List.getElem?_eq_none (by simpa using Nat.succ_le_of_lt hgt),
      List.getElem?_eq_none (Nat.le_of_lt hgt)]
    simp [Nat.ne_of_gt hgt]

section Descends

variable {origins : List Origin} {o : Origin} {k h : Nat}

/-- A signal descends from a handle whatever signals are made later. -/
theorem Descends.append (hdescends : Descends origins k h) (o : Origin) :
    Descends (origins ++ [o]) k h := by
  induction hdescends with
  | handle hget => exact .handle (getElem?_append_singleton_eq_some_iff.mpr (.inl hget))
  | clone hget _ ih => exact .clone (getElem?_append_singleton_eq_some_iff.mpr (.inl hget)) ih

/-- Descent among signals and one more of them. -/
theorem descends_append_iff (hrooted : Rooted (origins ++ [o])) :
    Descends (origins ++ [o]) k h ↔
      Descends origins k h ∨ (k = origins.length ∧ o.Inherits origins h) := by
  constructor
  · intro hdescends
    induction hdescends with
    | handle hget =>
      rcases getElem?_append_singleton_eq_some_iff.mp hget with hold | ⟨hk, rfl⟩
      · exact .inl (.handle hold)
      · exact .inr ⟨hk, rfl⟩
    | @clone k parent h hget _ ih =>
      have hparent := hrooted k parent hget
      have hk : k < (origins ++ [o]).length := (List.getElem?_eq_some_iff.mp hget).1
      rw [List.length_append, List.length_singleton] at hk
      have hdescends : Descends origins parent h := by
        rcases ih with hold | ⟨hlast, -⟩
        · exact hold
        · omega
      rcases getElem?_append_singleton_eq_some_iff.mp hget with hold | ⟨hlast, rfl⟩
      · exact .inl (.clone hold hdescends)
      · exact .inr ⟨hlast, hdescends⟩
  · rintro (hold | ⟨rfl, hinherits⟩)
    · exact hold.append o
    · have hlast : (origins ++ [o])[origins.length]? = some o := by simp
      cases o with
      | handle h' =>
        obtain rfl : h = h' := hinherits
        exact .handle hlast
      | detached => exact hinherits.elim
      | clone parent => exact .clone hlast (hinherits.append _)

end Descends

namespace Cancellations

/-- What has happened to handles and signals: how many handles were made, where each signal comes
from, which handles were cancelled or dropped, and for which signals tasks began to wait. -/
structure History where
  handles : Nat := 0
  origins : List Origin := []
  fired : List Nat := []
  waits : List Nat := []

namespace History

/-- The history after one more event. The turns of waiters are no part of it. -/
def record (H : History) : Event → History
  | .create => { H with
      handles := H.handles + 1, origins := H.origins ++ [.handle H.handles] }
  | .detach => { H with origins := H.origins ++ [.detached] }
  | .clone k => if k < H.origins.length then { H with origins := H.origins ++ [.clone k] } else H
  | .wait k => if k < H.origins.length then { H with waits := H.waits ++ [k] } else H
  | .cancel h | .drop h => if h < H.handles then { H with fired := H.fired ++ [h] } else H
  | .shut _ | .turn _ | .settle => H

/-- The history of all that happened from the start. -/
def of (events : List Event) : History := events.foldl record {}

/-- Signal `k` descends from the signal of a handle that was cancelled or dropped. -/
def HasFired (H : History) (k : Nat) : Prop := ∃ h ∈ H.fired, Descends H.origins k h

/-- A signal that has fired is not forgotten. -/
theorem HasFired.record {H : History} {k : Nat} (hfired : H.HasFired k) (e : Event) :
    (H.record e).HasFired k := by
  obtain ⟨h, hmem, hdescends⟩ := hfired
  cases e with
  | create | detach => exact ⟨h, hmem, hdescends.append _⟩
  | clone parent =>
    rw [History.record]
    split
    next => exact ⟨h, hmem, hdescends.append _⟩
    next => exact ⟨h, hmem, hdescends⟩
  | wait | cancel | drop =>
    simp only [History.record]
    split
    next => exact ⟨h, by simp [hmem], hdescends⟩
    next => exact ⟨h, hmem, hdescends⟩
  | shut | turn | settle => exact ⟨h, hmem, hdescends⟩

end History

end Cancellations

end ServiceHealth
