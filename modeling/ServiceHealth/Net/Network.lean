import ServiceHealth.Classification
import ServiceHealth.Net.Url
import ServiceHealth.Text.AsciiCase
import ServiceHealth.Text.Charset

/-!
# Networks

What a client can learn of a network: for each request it sends, what comes of it and after
how many milliseconds. An answer has a head and a body, and the body may come whole, break off
or never end. What comes of a request may depend on those that were sent before. What goes wrong on
the way is told in any words. How a client reads names and bodies, which takes tables of its own, is
part of the network as well.

## Main definitions

* `Head`, `Delivery`, `Exchange` — what comes of one request.
* `Network` — what comes of every request, and the tables of the client.
-/

namespace ServiceHealth.Net

/-- The head of an answer. -/
structure Head where
  code : StatusCode
  fields : List (String × String) := []
  deriving DecidableEq, Repr

/-- The value of the first field of this name, in either case. -/
def Head.field? (h : Head) (name : String) : Option String :=
  (h.fields.find? fun f => Text.sameFolded f.1 name).map Prod.snd

/-- How the body of an answer arrives after its head. -/
inductive Delivery
  | complete (delay : Nat) (bytes : List UInt8)
  | broken (delay : Nat) (cause : String)
  | endless
  deriving DecidableEq, Repr

/-- What comes of a request. It may fail before it has reached a server or after. -/
inductive Exchange
  | silence
  | failure (delay : Nat) (sent : Bool) (cause : String)
  | answer (delay : Nat) (head : Head) (body : Delivery)
  deriving DecidableEq, Repr

/-- The request has reached a server. -/
def Exchange.isSent : Exchange → Bool
  | failure _ sent _ => sent
  | _ => true

/-- What comes of a request, given the URLs that were asked before it, the last one first, and how
the client that asks puts names into ASCII and bodies into text: if nothing else is said, without
international names, and for the charsets that need no tables. -/
structure Network where
  exchange : (earlier : List Url) → Url → Exchange
  toAscii : ToAscii := Host.plainName?
  decoders : Text.Decoders := .basic

/-- What is known of a network after these exchanges of one fetch, the first one first: it is
silent from then on. -/
def Network.ofExchanges (es : List Exchange) : Network where
  exchange earlier _ := es[earlier.length]?.getD .silence

/-- A network in which nothing ever comes of a request. -/
def Network.silent : Network where
  exchange _ _ := .silence

/-- A network in which no host can be reached. -/
def Network.unreachable : Network where
  exchange _ _ := .failure 0 false
    "error trying to connect: tcp connect error: Network is unreachable (os error 101)"

end ServiceHealth.Net
