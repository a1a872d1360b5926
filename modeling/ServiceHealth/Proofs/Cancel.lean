import ServiceHealth.Cancel

/-!
# Waiting for a signal

A waiter on the channel of a handle that was dropped ends, wherever it stands: it may be about
to read the value, or wait with a count that it saw before. While nothing has been sent and the
handle is alive, a waiter that has its turn comes to rest and waits for the next change.

## Main results

* `Phase.run_of_closed` — a waiter on a channel that was closed ends.
* `Phase.run_of_quiet` — a waiter on a channel on which nothing was sent waits on.
-/

namespace ServiceHealth

/-- A channel whose handle was dropped is ready. -/
theorem Channel.isReady_close (c : Channel) : c.close.isReady = true := rfl

namespace Phase

variable {c : Channel}

/-- A waiter ends once true was stored and the channel was closed. -/
theorem run_of_closed (hcancelled : c.cancelled = true) (hclosed : c.isOpen = false) (p : Phase) :
    p.run c 4 = .ended := by
  cases p with
  | reading => simp [run, next?, hcancelled]
  | waiting seen =>
    by_cases hseen : c.changes = seen
    · simp [run, next?, hseen, hclosed]
    · simp [run, next?, hseen, hcancelled]
  | ended => simp [run, next?]

/-- A waiter that has not ended waits for the next change while nothing was sent. -/
theorem run_of_quiet (hquiet : c.cancelled = false) (hopen : c.isOpen = true) {p : Phase}
    (hp : p ≠ .ended) : p.run c 4 = .waiting c.changes := by
  cases p with
  | reading => simp [run, next?, hquiet, hopen]
  | waiting seen =>
    by_cases hseen : c.changes = seen
    · simp [run, next?, hseen, hopen]
    · simp [run, next?, hseen, hquiet, hopen]
  | ended => exact absurd rfl hp

end Phase

end ServiceHealth
