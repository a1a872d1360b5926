import ServiceHealth.Check
import ServiceHealth.Json.Writer

/-!
# Queries

A query asks for the reports of all applications or of the one with a name. It is answered
from one snapshot of the settings.

## Main definitions

* `Query`, `Query.applications?` — queries, and the applications they ask for.
* `NotFound`, `NotFound.message`, `NotFound.toJson` — that there is no such application.
-/

namespace ServiceHealth

/-- A question for reports. -/
inductive Query
  | list
  | get (name : String)
  deriving DecidableEq, Repr, Inhabited

/-- That no application has a name. -/
structure NotFound where
  name : String
  deriving DecidableEq, Repr

namespace NotFound

/-- The text that tells it. -/
def message (e : NotFound) : String := "Application '" ++ e.name ++ "' not found"

/-- The document that tells it. -/
def toJson (e : NotFound) : Json := .object [(some "message", .text e.message)]

end NotFound

/-- The applications that a query asks for. -/
def Query.applications (s : Settings) : Query → Except NotFound (List Application)
  | list => .ok s.applications
  | get name =>
    match s.application? name with
    | some app => .ok [app]
    | none => .error ⟨name⟩

end ServiceHealth
