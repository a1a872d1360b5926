import ServiceHealth.Net.Url
import ServiceHealth.Report

/-!
# Probers

A prober is asked for a member by name and URI, at some time, and with a signal that may fire
at some time. It answers with a run: when it ends, and with which report, or that it panicked.
Times are milliseconds.

## Main definitions

* `Outcome`, `Run`, `Prober` — probes.
* `Probing` — probes that need not treat all tasks alike.
* `Prober.timed` — a prober that takes its time unless its signal fires first.
-/

namespace ServiceHealth

/-- How a probe ends: with a report, or in a panic, whose message is absent when it is no
text. -/
inductive Outcome
  | report (r : MemberReport)
  | panic (message : Option String)
  deriving DecidableEq, Repr

/-- One run of a probe: its end, its outcome, whether it ended because its signal fired, and
the URLs it asked. -/
structure Run where
  endsAt : Nat
  outcome : Outcome
  cancelled : Bool := false
  asked : List Net.Url := []
  deriving DecidableEq, Repr

/-- What a probe of a member does when it starts at `start` and its signal fires at
`cancelAt`, or never. -/
abbrev Prober := (name uri : String) → (start : Nat) → (cancelAt : Option Nat) → Run

/-- What the probe of each task does: two tasks may probe the same member with different
outcomes. -/
abbrev Probing := (task : Nat) → Prober

/-- A prober treats all tasks alike. -/
instance : Coe Prober Probing := ⟨fun p _ => p⟩

/-- The payload of a probe that was cancelled. -/
def cancelledPayload : String := "Request cancelled"

namespace Prober

/-- How a timed prober treats a member: how long it takes, how it ends, and the duration that
it reports when it is cancelled. -/
structure Plan where
  delay : Nat := 0
  outcome : Outcome
  cancelledMs : Nat := 0

/-- A probe looks at its signal first, then at its own end. -/
def timed (plan : (name uri : String) → Plan) : Prober := fun name uri start cancelAt =>
  let p := plan name uri
  let finish : Run := { endsAt := start + p.delay, outcome := p.outcome }
  match cancelAt with
  | none => finish
  | some c =>
    if c ≤ start + p.delay then
      { endsAt := max c start, cancelled := true
        outcome := .report (.unreachable name uri p.cancelledMs cancelledPayload) }
    else finish

end Prober

end ServiceHealth
