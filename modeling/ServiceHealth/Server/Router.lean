import ServiceHealth.Query
import ServiceHealth.Text.Percent

/-!
# Routes

Below a base path the service has two routes: `applications`, and `applications` with the
percent-encoded name of one. A path is split into segments before a name is decoded, so an
encoded slash belongs to the name. Slashes at the end of the base path do not count, nor do
empty segments behind it.

## Main definitions

* `trimSlashes` — a base path without slashes at its end.
* `route?` — the query that a path asks for.
-/

namespace ServiceHealth.Server

open Text

/-- A path without the slashes at its end. -/
def trimSlashes (path : String) : List Char :=
  (path.toList.reverse.dropWhile (· == '/')).reverse

/-- The text behind a base path, if the path goes on with a slash or ends there. -/
def behind? (base path : List Char) : Option (List Char) :=
  if base.isPrefixOf path then
    match path.drop base.length with
    | [] => some []
    | '/' :: rest => some ('/' :: rest)
    | _ => none
  else none

/-- The segments of a path that are not empty. -/
def segments (cs : List Char) : List (List Char) := (cs.splitOn '/').filter (· ≠ [])

/-- The query that a path asks for. A name that is not UTF-8 names nothing. -/
def route? (base path : String) : Option Query := do
  let rest ← behind? (trimSlashes base) path.toList
  match segments rest with
  | [word] => if word = "applications".toList then some .list else none
  | [word, name] =>
    if word = "applications".toList then
      (Percent.decode? (String.ofList name)).map .get
    else none
  | _ => none

example : route? "/api//" "/api//applications/" = some .list := by decide +kernel
example : route? "/api" "/api/applications/a%2Fb" = some (.get "a/b") := by decide +kernel
example : route? "/api" "/apis/applications" = none := by decide +kernel

end ServiceHealth.Server
