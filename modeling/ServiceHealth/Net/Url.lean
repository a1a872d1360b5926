import ServiceHealth.Net.Host

/-!
# URLs

A URL in its parts, and its text. The parts are kept as they are written: what has to be
encoded in a part is encoded in it.

## Main definitions

* `Url` — scheme, authority, path, query and fragment.
* `Url.render` — the text of a URL.
* `Url.withoutCredentials` — the URL that a request is sent to.
-/

namespace ServiceHealth.Net

/-- The part of a URL that names a server. -/
structure Authority where
  username : String := ""
  password : Option String := none
  host : Host
  port : Option UInt16 := none
  deriving DecidableEq, Repr

/-- The path of a URL: segments, each after a slash, or one bare text. -/
inductive UrlPath
  | segments (list : List String)
  | bare (text : String)
  deriving DecidableEq, Repr

/-- A URL. -/
structure Url where
  scheme : String
  authority : Option Authority
  path : UrlPath
  query : Option String := none
  fragment : Option String := none
  deriving DecidableEq, Repr

/-- The port that a special scheme is served on; a special scheme without one has a host
nevertheless. -/
def specialPort? : String → Option (Option UInt16)
  | "http" | "ws" => some (some 80)
  | "https" | "wss" => some (some 443)
  | "ftp" => some (some 21)
  | "file" => some none
  | _ => none

namespace Authority

/-- The credentials of an authority, up to the sign behind them. -/
def credentials (a : Authority) : String :=
  match a.password with
  | some password => a.username ++ ":" ++ password ++ "@"
  | none => if a.username = "" then "" else a.username ++ "@"

/-- The text of an authority. -/
def render (a : Authority) : String :=
  a.credentials ++ a.host.render ++ (a.port.elim "" fun p => ":" ++ toString p.toNat)

end Authority

namespace Url

/-- The text of a path. Without an authority an empty first segment is kept apart from the
two slashes of one. -/
def pathText (hasAuthority : Bool) : UrlPath → String
  | .bare text => text
  | .segments list =>
    let text := String.join (list.map ("/" ++ ·))
    if !hasAuthority && 1 < list.length && list.head? = some "" then "/." ++ text else text

/-- The text of a URL. -/
def render (u : Url) : String :=
  u.scheme ++ ":" ++ (u.authority.elim "" fun a => "//" ++ a.render) ++
    pathText u.authority.isSome u.path ++ (u.query.elim "" ("?" ++ ·)) ++
    (u.fragment.elim "" ("#" ++ ·))

/-- The authority of the URL that a request is sent to: credentials that are UTF-8 go into
the request itself. -/
def strippedAuthority (a : Authority) : Authority :=
  let password := a.password.bind Text.Percent.decode?
  match Text.Percent.decode? a.username with
  | some username =>
    if username ≠ "" ∨ password.isSome then { a with username := "", password := none } else a
  | none => a

/-- The URL that a request is sent to. -/
def withoutCredentials (u : Url) : Url := { u with authority := u.authority.map strippedAuthority }

/-- The port that a request is sent to. -/
def port? (u : Url) : Option UInt16 :=
  (u.authority.bind (·.port)).or (specialPort? u.scheme).join

end Url

end ServiceHealth.Net
