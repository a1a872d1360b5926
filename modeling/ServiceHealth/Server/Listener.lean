import ServiceHealth.Metrics.Exposition
import ServiceHealth.Server.Handler

/-!
# Listening

A server is built for an address and needs a handler. Each request arrives as the method and
the target of its first line; a line that cannot be read is answered as a bad request. Metrics
are served at an address of their own, under one path, whatever the method.

## Main definitions

* `ServeError`, `ServeError.message` — why a server does not listen.
* `listen` — what decides whether a server listens.
* `answerLine`, `answerMetrics` — the answers of the two servers.
-/

namespace ServiceHealth.Server

/-- Why a server does not listen. -/
inductive ServeError
  | noHandler
  | bind (address : String)
  deriving DecidableEq, Repr

/-- The text of an error. -/
def ServeError.message : ServeError → String
  | noHandler => "handler must be set via with_handler()"
  | bind address => "Failed to bind " ++ address

/-- A server listens if it has a handler and its address is free; a missing handler is noticed
first. -/
def listen (handler : Option Handler) (address : String) (isFree : Bool) :
    Except ServeError Handler :=
  match handler with
  | none => .error .noHandler
  | some h => if isFree then .ok h else .error (.bind address)

/-- The request of a first line, if its parts are legal. -/
def Request.ofParts? (method target : String) : Option Request := do
  return ⟨← Net.Method.ofString? method, ← Net.RequestTarget.ofString? target⟩

/-- That a request cannot be read. -/
def Response.badRequest : Response := .text 400 ""

/-- The answer to a first line, the checks for it, and the service after it. -/
def Handler.answerLine (h : Handler) (v : Service) (method target : String) :
    Response × List Check × Service :=
  match Request.ofParts? method target with
  | none => (.badRequest, [], v)
  | some r =>
    let (response, checks, after) := h.handle v r
    (response.sentFor r.method, checks, after)

/-- The answer of the server of metrics, which has them under one path. -/
def answerMetrics (path : String) (m : Metrics) (r : Request) : Response :=
  if r.target.path = path then ⟨200, some "text/plain; version=0.0.4", m.render⟩
  else .notFound

/-- The answer of the server of metrics to a first line. -/
def answerMetricsLine (path : String) (m : Metrics) (method target : String) : Response :=
  match Request.ofParts? method target with
  | none => .badRequest
  | some r => (answerMetrics path m r).sentFor r.method

end ServiceHealth.Server
