import ServiceHealth.Number.Shortest
import ServiceHealth.Prober
import ServiceHealth.Prober.Fetch

/-!
# Probing over HTTP

A probe fetches the URI of its member, bounded by one timer for all of the fetch. Its signal
is looked at first, then the timer, then the fetch. Whatever happens is folded into a report:
an answer is classified and its body is the payload, and all else is a member that cannot be
reached, with the reason as the payload.

## Main definitions

* `race` — which of signal, timer and fetch decides a probe, and when.
* `timeoutText` — the payload of a probe whose timer fired.
* `Prober.http` — the prober.
-/

namespace ServiceHealth

open Number

/-- What decides a probe. -/
inductive Decision (α : Type)
  | cancelled
  | timedOut
  | fetched (result : α)
  deriving DecidableEq, Repr

/-- The first of signal, timer and fetch, in this order when they come together, and its time.
The timer never fires within the first millisecond. -/
def race {α : Type} (cancelAt : Option Nat) (timeoutMs : Nat) (ending : Option (Nat × α)) :
    Nat × Decision α :=
  let timer := max timeoutMs 1
  let first : Nat × Decision α :=
    match ending with
    | some (r, result) => if r < timer then (r, .fetched result) else (timer, .timedOut)
    | none => (timer, .timedOut)
  match cancelAt with
  | some c => if c ≤ first.1 then (c, .cancelled) else first
  | none => first

/-- A number of milliseconds as seconds: the whole seconds plus the rest, each a double. -/
def secondsOf (ms : Nat) : Binary64 :=
  Binary64.ofNat (ms / 1000) +
    Binary64.ofNat (ms % 1000 * 1000000) / Binary64.ofNat nanosecondsPerSecond

/-- The payload of a probe whose timer fired. -/
def timeoutText (timeoutMs : Nat) : String :=
  "Timeout after " ++ (secondsOf timeoutMs).shortest.positional ++ " seconds"

/-- The status and the payload that a decision gives. -/
def Decision.verdict (timeoutMs : Nat) :
    Decision (Except FetchError Answer) → MemberStatus × String
  | .cancelled => (.ofHealth .unreachable, cancelledPayload)
  | .timedOut => (.ofHealth .unreachable, timeoutText timeoutMs)
  | .fetched (.error e) => (.ofHealth .unreachable, e.message)
  | .fetched (.ok a) => (classify a.code a.body, a.body)

/-- The signal decided. -/
def Decision.isCancelled {α : Type} : Decision α → Bool
  | .cancelled => true
  | _ => false

/-- The requests that were sent before a decision: all of them if the fetch decided. -/
def Decision.asked {α : Type} (elapsed : Nat) (requests : List (Nat × Net.Url)) :
    Decision α → List Net.Url
  | .fetched _ => requests.map Prod.snd
  | _ => (requests.filter (·.1 < elapsed)).map Prod.snd

/-- A probe over HTTP with a timeout. -/
def Prober.http (network : Net.Network) (timeoutMs : Nat) : Prober :=
  fun name uri start cancelAt =>
    let fetch := Fetch.ofUri network uri
    let (elapsed, decision) := race (cancelAt.map (· - start)) timeoutMs fetch.ending
    let (status, payload) := decision.verdict timeoutMs
    { endsAt := start + elapsed
      outcome := .report ⟨name, uri, status, elapsed, some payload⟩
      cancelled := decision.isCancelled
      asked := decision.asked elapsed fetch.requests }

example : timeoutText 1500 = "Timeout after 1.5 seconds" := by decide +kernel
example : (race (some 5) 5 (some (5, ()))).2 = .cancelled := by decide
example : race none 0 (some (0, ())) = (0, .fetched ()) := by decide

end ServiceHealth
