/-!
# Cancellation

A handle and its signals share a channel that holds one truth value and counts its changes.
Cancelling stores true; dropping the handle stores true and closes the channel. A signal is
ready once its channel holds true or is closed; a signal that belongs to no handle never is.
A waiter reads the value and remembers the count it saw, and only then waits for the count to
change, so a change between the two steps is not lost.

## Main definitions

* `Channel` — the value, the count of changes, and whether the handle is alive.
* `Waiter`, `Waiter.step?` — one task that waits for a signal, one step at a time.
* `Cancellations` — handles, signals and waiters together, with the actions on them.
* `Cancellations.settle` — all waiters run until none can go on.
-/

namespace ServiceHealth

/-- What a handle shares with its signals. -/
structure Channel where
  cancelled : Bool := false
  changes : Nat := 0
  isOpen : Bool := true
  deriving DecidableEq, Repr, Inhabited

namespace Channel

/-- True is stored. -/
def send (c : Channel) : Channel := { c with cancelled := true, changes := c.changes + 1 }

/-- The handle is dropped: true is stored, then the channel closes. -/
def close (c : Channel) : Channel := { c.send with isOpen := false }

/-- Whoever waits for the channel need not wait. -/
def isReady (c : Channel) : Bool := c.cancelled || !c.isOpen

end Channel

/-- A signal refers to the channel of a handle by its number, or to none. -/
abbrev Signal := Option Nat

/-- Where a waiter stands. -/
inductive Phase
  | reading
  | waiting (seen : Nat)
  | ended
  deriving DecidableEq, Repr, Inhabited

/-- A task that waits for a signal. -/
structure Waiter where
  signal : Signal
  phase : Phase := .reading
  deriving DecidableEq, Repr, Inhabited

/-- The next phase of a waiter on a channel, if it can go on: reading ends the wait when the
value is true and else remembers the count; waiting goes on to read when the count has changed
and ends when the channel is closed. -/
def Phase.next? (c : Channel) : Phase → Option Phase
  | .reading => some (if c.cancelled then .ended else .waiting c.changes)
  | .waiting seen =>
    if c.changes ≠ seen then some .reading
    else if c.isOpen then none
    else some .ended
  | .ended => none

/-- A phase after at most `fuel` steps. -/
def Phase.run (c : Channel) : (fuel : Nat) → Phase → Phase
  | 0, p => p
  | fuel + 1, p =>
    match p.next? c with
    | some q => run c fuel q
    | none => p

/-- Handles, by number with their channels; signals and waiters, each in the order they were
made. A handle is alive as long as its channel is open. -/
structure Cancellations where
  channels : List Channel := []
  signals : List Signal := []
  waiters : List Waiter := []
  deriving DecidableEq, Repr, Inhabited

namespace Cancellations

variable (s : Cancellations)

/-- The channel of a signal. -/
def channel? (signal : Signal) : Option Channel := signal.bind (s.channels[·]?)

/-- A signal is ready at once. -/
def isReady (signal : Signal) : Bool := (s.channel? signal).any Channel.isReady

/-- A new handle with its first signal. -/
def create : Cancellations :=
  { s with channels := s.channels ++ [{}], signals := s.signals ++ [some s.channels.length] }

/-- A signal that belongs to no handle. -/
def detach : Cancellations := { s with signals := s.signals ++ [none] }

/-- Another signal of the same handle as signal `i`. -/
def clone? (i : Nat) : Option Cancellations := do
  return { s with signals := s.signals ++ [← s.signals[i]?] }

/-- A task begins to wait for signal `i`. -/
def wait? (i : Nat) : Option Cancellations := do
  return { s with waiters := s.waiters ++ [{ signal := ← s.signals[i]? }] }

/-- A change of the channel of handle `i`, if the handle is alive. -/
def change? (f : Channel → Channel) (i : Nat) : Option Cancellations := do
  let c ← s.channels[i]?
  if c.isOpen then return { s with channels := s.channels.set i (f c) } else none

/-- Handle `i` is cancelled. -/
def cancel? (i : Nat) : Option Cancellations := s.change? Channel.send i

/-- Handle `i` is dropped. -/
def drop? (i : Nat) : Option Cancellations := s.change? Channel.close i

/-- Waiter `k` makes one step, if it can. -/
def stepWaiter? (k : Nat) : Option Cancellations := do
  let w ← s.waiters[k]?
  let phase ← w.phase.next? (← s.channel? w.signal)
  return { s with waiters := s.waiters.set k { w with phase } }

/-- A waiter runs until it can go on no more: four steps are always enough. -/
def settleWaiter (w : Waiter) : Waiter :=
  match s.channel? w.signal with
  | some c => { w with phase := w.phase.run c 4 }
  | none => w

/-- All waiters run until none can go on. -/
def settle : Cancellations := { s with waiters := s.waiters.map s.settleWaiter }

/-- Which signals are ready. -/
def ready : List Bool := s.signals.map s.isReady

/-- Which waiters have ended. -/
def woken : List Bool := s.waiters.map (·.phase = .ended)

end Cancellations

end ServiceHealth
