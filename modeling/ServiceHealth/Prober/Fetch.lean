import ServiceHealth.Net.MediaType
import ServiceHealth.Net.Network
import ServiceHealth.Net.RequestTarget
import ServiceHealth.Net.Url.Reader

/-!
# Fetching a URL

One GET request, and another one for every redirection that is followed. At most nine are.
The body of the last answer is read whatever its code is.

## Main definitions

* `FetchError`, `FetchError.message` — why there is no answer.
* `Fetch` — the requests of a fetch and how it ends, with the time of each.
* `Fetch.ofUri` — the fetch of the URL that a text spells, in a network.
-/

namespace ServiceHealth

open Net

/-- Why a fetch has no answer. -/
inductive FetchError
  | invalidUri (uri : String) (error : UrlError)
  | schemeNotAllowed (url : Url)
  | notATarget (url : Url)
  | sending (url : Url) (cause : String)
  | tooManyRedirects (url : Url)
  | bodyBroken (cause : String)
  deriving DecidableEq, Repr

/-- The text of an error: what was being done, and what went wrong. -/
def FetchError.message : FetchError → String
  | invalidUri uri error => "Invalid member URI '" ++ uri ++ "': " ++ error.message
  | schemeNotAllowed url =>
    "builder error for url (" ++ url.render ++ "): URL scheme is not allowed"
  | notATarget url =>
    "builder error for url (" ++ url.render ++ "): Parsed Url is not a valid Uri"
  | sending url cause => "error sending request for url (" ++ url.render ++ "): " ++ cause
  | tooManyRedirects url =>
    "error following redirect for url (" ++ url.render ++ "): too many redirects"
  | bodyBroken cause => "request or response body error: " ++ cause

/-- An answer that was received whole. -/
structure Answer where
  code : StatusCode
  body : String
  deriving DecidableEq, Repr

/-- A fetch: the requests that reached a server and when, and when and how it ends, if ever. -/
structure Fetch where
  requests : List (Nat × Url) := []
  ending : Option (Nat × Except FetchError Answer)

namespace Fetch

/-- A fetch that ends at once. -/
def failed (now : Nat) (e : FetchError) : Fetch := { ending := some (now, .error e) }

/-- The codes of redirections. -/
def isRedirect (c : StatusCode) : Bool := [301, 302, 303, 307, 308].contains c.value

/-- The schemes that are fetched. -/
def isFetched (u : Url) : Bool := u.scheme == "http" || u.scheme == "https"

/-- The URL can stand in a request. -/
def isTarget (u : Url) : Bool := (RequestTarget.ofString? u.render).isSome

/-- Where a redirection points to, if it points anywhere. -/
def location? (toAscii : ToAscii) (url : Url) (head : Head) : Option Url := do
  let text ← head.field? "location"
  (url.join toAscii text).toOption.filter isTarget

/-- The text of a body in the charset that its head announces. -/
def bodyText (decoders : Text.Decoders) (head : Head) (bytes : List UInt8) : String :=
  decoders.text ((head.field? "content-type").bind MediaType.label?) bytes

/-- The answer whose body arrives after `now`. -/
def readBody (decoders : Text.Decoders) (now : Nat) (head : Head) :
    Delivery → Option (Nat × Except FetchError Answer)
  | .endless => none
  | .broken delay cause => some (now + delay, .error (.bodyBroken cause))
  | .complete delay bytes => some (now + delay, .ok ⟨head.code, bodyText decoders head bytes⟩)

/-- The requests from `url` on, with `hops` redirections left to follow. -/
def follow (network : Network) : (hops : Nat) → (now : Nat) → (earlier : List Url) → Url → Fetch
  | hops, now, earlier, url =>
    let exchange := network.exchange earlier url
    let sent := if exchange.isSent then [(now, url)] else []
    match exchange with
    | .silence => { requests := sent, ending := none }
    | .failure delay _ cause =>
      { requests := sent, ending := some (now + delay, .error (.sending url cause)) }
    | .answer delay head body =>
      let now := now + delay
      match if isRedirect head.code then location? network.toAscii url head else none with
      | none => { requests := sent, ending := readBody network.decoders now head body }
      | some next =>
        match hops with
        | 0 => { requests := sent, ending := some (now, .error (.tooManyRedirects url)) }
        | hops + 1 =>
          if isFetched next then
            let rest := follow network hops now (url :: earlier) next
            { rest with requests := sent ++ rest.requests }
          else { requests := sent, ending := some (now, .error (.schemeNotAllowed next)) }

/-- How many redirections are followed. -/
def maxRedirects : Nat := 9

/-- The fetch of a URL, begun at time zero. -/
def ofUrl (network : Network) (url : Url) : Fetch :=
  let url := url.withoutCredentials
  if !isFetched url then failed 0 (.schemeNotAllowed url)
  else if !isTarget url then failed 0 (.notATarget url)
  else follow network maxRedirects 0 [] url

/-- The fetch of the URL that a text spells, begun at time zero. -/
def ofUri (network : Network) (uri : String) : Fetch :=
  match Url.parse network.toAscii uri with
  | .error e => failed 0 (.invalidUri uri e)
  | .ok url => ofUrl network url

end Fetch

end ServiceHealth
