import ServiceHealth.Net.RequestTarget
import ServiceHealth.Server.Router
import ServiceHealth.Service

/-!
# Answering requests

The handler looks at the shared settings twice: first whether there are any applications,
without which no route exists, and then for the snapshot that the query is answered from. A
request passes through the stages `received`, `admitted` and `answered`.

## Main definitions

* `Request`, `Response` — requests and answers.
* `gate`, `respond` — what is refused without a query, and the answer to a query.
* `Stage`, `Handler.step` — how far a request has come, and the two looks at the settings.
* `Handler.handle` — a request from start to end, when the settings do not change meanwhile.
* `Handler.abandon` — a request whose client goes away.
-/

namespace ServiceHealth.Server

/-- A request: its method and its path. -/
structure Request where
  method : Net.Method
  target : Net.RequestTarget
  deriving DecidableEq, Repr

/-- An answer. -/
structure Response where
  status : Nat
  contentType : Option String
  body : String
  deriving DecidableEq, Repr

namespace Response

/-- An answer in plain words. -/
def text (status : Nat) (message : String) : Response := ⟨status, none, message⟩

/-- An answer with a document. -/
def json (status : Nat) (doc : Json) : Response := ⟨status, some "application/json", doc.render⟩

/-- That there is no such resource. -/
def notFound : Response := text 404 "Not Found"

/-- That the resource has no such method. -/
def methodNotAllowed : Response := text 405 "Method Not Allowed"

/-- The answer that is sent for a method: without its body if only the head was asked for. -/
def sentFor (m : Net.Method) (r : Response) : Response :=
  if m = .head then { r with body := "" } else r

end Response

/-- How far a request has come. -/
inductive Stage
  | received (request : Request)
  | admitted (query : Query)
  | answered (response : Response) (checks : List Check)
  deriving DecidableEq, Repr

/-- The first look at the settings: whether the request is for a query. -/
def gate (basePath : String) (current : Settings) (r : Request) : Except Response Query :=
  match route? basePath r.target.path with
  | none => .error .notFound
  | some q =>
    if current.applications.isEmpty then .error .notFound
    else if r.method ≠ .get then .error .methodNotAllowed
    else .ok q

/-- The answer to a query. -/
def respond (clock : Nat → Timestamp) (q : Query) : Except NotFound (List Check) → Response
  | .ok cs => .json 200 (q.answer clock cs)
  | .error e => .json 404 e.toJson

/-- What does not change while requests are answered. -/
structure Handler where
  basePath : String
  probing : Probing
  clock : Nat → Timestamp

namespace Handler

/-- The second look at the settings: the answer to a query from what is current, the checks
for it, and the service after them. -/
def serve (h : Handler) (v : Service) (q : Query) : Response × List Check × Service :=
  let (result, after) := v.ask h.probing h.clock v.settings none q
  (respond h.clock q result, result.toOption.getD [], after)

/-- The next stage of a request, with the settings that are current, and the service after
it. -/
def step (h : Handler) (v : Service) : Stage → Stage × Service
  | .received r =>
    match gate h.basePath v.settings r with
    | .error response => (.answered response [], v)
    | .ok q => (.admitted q, v)
  | .admitted q =>
    let (response, checks, after) := h.serve v q
    (.answered response checks, after)
  | .answered response checks => (.answered response checks, v)

/-- The answer to a request, the checks for it and the service after it, when the settings do
not change meanwhile. -/
def handle (h : Handler) (v : Service) (r : Request) : Response × List Check × Service :=
  match gate h.basePath v.settings r with
  | .error response => (response, [], v)
  | .ok q => h.serve v q

/-- The checks for a request whose client goes away at `dropAt`, and the service after
them. -/
def abandon (h : Handler) (v : Service) (dropAt : Nat) (r : Request) : Abandoned × Service :=
  match gate h.basePath v.settings r with
  | .error _ => (⟨[], none⟩, v)
  | .ok q => v.abandon h.probing h.clock v.settings dropAt q

end Handler

end ServiceHealth.Server
