import ServiceHealth.Net.Url

/-!
# Reading URLs

The text of a URL is taken apart at its first number sign, its first question mark and the
end of its authority. Blanks around the text and line ends in it do not count. A scheme that
is special always has a host, whose name the client puts into ASCII, takes a backslash for a
slash, and allows any number of slashes after its colon. Dots in a path are resolved.

## Main definitions

* `UrlError`, `UrlError.message` — why a text is no URL.
* `Url.parse` — the URL that a text spells.
* `Url.join` — the URL that a text spells relative to another one.
-/

namespace ServiceHealth.Net

open Text

/-- Why a text is no URL. -/
inductive UrlError
  | noBase
  | noRelative
  | invalidPort
  | host (error : HostError)
  deriving DecidableEq, Repr

/-- The text of an error. -/
def UrlError.message : UrlError → String
  | noBase => "relative URL without a base"
  | noRelative => "relative URL with a cannot-be-a-base base"
  | invalidPort => "invalid port number"
  | host error => error.message

namespace Url

/-! ### Pieces of the text -/

/-- The characters before the first occurrence of a character, and those after it, if it
occurs. -/
def cut (c : Char) (cs : List Char) : List Char × Option (List Char) :=
  match cs.dropWhile (· != c) with
  | [] => (cs, none)
  | _ :: rest => (cs.takeWhile (· != c), some rest)

/-- The characters before the last occurrence of a character, if it occurs, and those after
it. -/
def cutLast (c : Char) (cs : List Char) : Option (List Char) × List Char :=
  match cut c cs.reverse with
  | (back, some front) => (some front.reverse, back.reverse)
  | (_, none) => (none, cs)

/-- The text without blanks and controls around it, and without tabs and line ends. -/
def clean (s : String) : List Char :=
  let isEdge (c : Char) : Bool := c.toNat ≤ 0x20
  ((s.toList.dropWhile isEdge).reverse.dropWhile isEdge).reverse.filter fun c =>
    c != '\t' && c != '\n' && c != '\x0d'

/-- The text in its three parts: before the question mark, the query, the fragment. -/
structure Parts where
  body : List Char
  query : Option (List Char)
  fragment : Option (List Char)

/-- The three parts of a text. -/
def Parts.of (cs : List Char) : Parts :=
  let (front, fragment) := cut '#' cs
  let (body, query) := cut '?' front
  ⟨body, query, fragment⟩

/-- A character of a scheme after the first one. -/
def isSchemeChar (c : Char) : Bool := c.isAlphanum || c == '+' || c == '-' || c == '.'

/-- The scheme in front of a text, in lower case, and the text after its colon. -/
def scheme? (cs : List Char) : Option (String × List Char) :=
  let word := cs.takeWhile isSchemeChar
  match word, cs.drop word.length with
  | c :: _, ':' :: rest =>
    if c.isAlpha then some (String.ofList (word.map Char.toLower), rest) else none
  | _, _ => none

/-- A slash, or in a special scheme a backslash. -/
def isSlash (special : Bool) (c : Char) : Bool := c == '/' || (special && c == '\\')

/-! ### Encoding -/

/-- The characters that are encoded in a fragment. -/
def fragmentSet : List Char := " \"<>\x60".toList

/-- The characters that are encoded in a query. -/
def querySet (special : Bool) : List Char :=
  if special then " \"#<>'".toList else " \"#<>".toList

/-- The characters that are encoded in a segment of a path. -/
def pathSet : List Char := " \"#<>\x60?\x7b\x7d".toList

/-- The characters that are encoded in credentials. -/
def credentialsSet : List Char := pathSet ++ "/:;=@[\\]^|".toList

/-- The text of a part of a URL. -/
def encoded (set : List Char) (cs : List Char) : String := String.ofList (Percent.encode set cs)

/-! ### Paths -/

/-- A dot, as it is or encoded. -/
def isDot (s : String) : Bool := s == "." || s.toLower == "%2e"

/-- Two dots, each as it is or encoded. -/
def isTwoDots (s : String) : Bool := ["..", ".%2e", "%2e.", "%2e%2e"].contains s.toLower

/-- A letter and a colon or a bar: a drive. -/
def isDrive (s : String) : Bool :=
  match s.toList with
  | [c, d] => c.isAlpha && (d == ':' || d == '|')
  | _ => false

/-- The segments, the last one first, without the last one; a drive at the root of a file
stays. -/
def shorten (isFile : Bool) : List String → List String
  | [] => []
  | [s] => if isFile && isDrive s then [s] else []
  | _ :: ss => ss

/-- One more segment: a drive at the root of a file gets a colon. -/
def push (isFile : Bool) (s : String) (acc : List String) : List String :=
  if isFile && acc.isEmpty && isDrive s then String.ofList (s.toList.take 1 ++ [':']) :: acc
  else s :: acc

/-- The segments of a path with its dots resolved, after those in `acc`, of which the last
one comes first. -/
def resolve (isFile : Bool) : (acc : List String) → List String → List String
  | acc, [] => acc.reverse
  | acc, [s] =>
    if isTwoDots s then ("" :: shorten isFile acc).reverse
    else if isDot s then ("" :: acc).reverse
    else (push isFile s acc).reverse
  | acc, s :: ss =>
    if isTwoDots s then resolve isFile (shorten isFile acc) ss
    else if isDot s then resolve isFile acc ss
    else resolve isFile (push isFile s acc) ss

/-- The segments of a text, encoded. -/
def rawSegments (special : Bool) (cs : List Char) : List String :=
  (cs.splitOnP (isSlash special)).map (encoded pathSet)

/-- The path after an authority, or after the segments in `acc`: the first slash only
separates. A special path is never empty, and that of a file begins with no empty segment. -/
def segmentsFrom (scheme : String) (acc : List String) (cs : List Char) : List String :=
  let special := (specialPort? scheme).isSome
  let isFile := scheme = "file"
  let body := match cs with
    | c :: rest => if isSlash special c then rest else cs
    | [] => []
  let all := resolve isFile acc (rawSegments special body)
  if cs = [] ∧ !special then acc.reverse
  else if isFile then
    match all.dropWhile (· = "") with
    | [] => [""]
    | list => list
  else all

/-! ### Authorities -/

variable (toAscii : ToAscii)

/-- The credentials in front of a host, up to the last sign, and the host. -/
def readCredentials (cs : List Char) : String × Option String × List Char :=
  match cutLast '@' cs with
  | (none, host) => ("", none, host)
  | (some info, host) =>
    match cut ':' info with
    | (username, some []) | (username, none) => (encoded credentialsSet username, none, host)
    | (username, some password) =>
      (encoded credentialsSet username, some (encoded credentialsSet password), host)

/-- The host up to the first colon outside brackets, and what follows it. -/
def hostSpan : (inside : Bool) → List Char → List Char × List Char
  | _, [] => ([], [])
  | inside, c :: cs =>
    if c = ':' ∧ !inside then ([], c :: cs)
    else
      let (host, rest) := hostSpan (c = '[' ∨ (inside ∧ c ≠ ']')) cs
      (c :: host, rest)

/-- The port after a colon, and what follows its digits: nothing, or a backslash that begins
the path. -/
def readPort (scheme : String) (cs : List Char) : Except UrlError (Option UInt16 × List Char) :=
  let digits := cs.takeWhile Char.isDigit
  let value := (Number.numberIn? 10 digits).getD 0
  let rest := cs.drop digits.length
  if 65535 < value ∨ (rest ≠ [] ∧ rest.head? ≠ some '\\') then .error .invalidPort
  else if digits = [] ∨ specialPort? scheme = some (some value.toUInt16) then .ok (none, rest)
  else .ok (some value.toUInt16, rest)

/-- The authority of a URL, and what it leaves for the path. Where credentials are given, the
host must not be empty. -/
def readAuthority (scheme : String) (followed : Bool) (cs : List Char) :
    Except UrlError (Authority × List Char) := do
  let special := (specialPort? scheme).isSome
  let (username, password, rest) := readCredentials cs
  if cs = ['@'] ∧ followed then .error (.host .empty)
  let (hostText, rest) := hostSpan false rest
  if hostText = [] ∧ (special ∨ rest ≠ [] ∨ username ≠ "" ∨ password.isSome) then
    .error (.host .empty)
  let parseHost := if special then Host.parse toAscii else Host.parseOther
  let host ← (parseHost hostText).mapError .host
  let (port, rest) ← match rest with
    | ':' :: digits => readPort scheme digits
    | rest => .ok (none, rest)
  return (⟨username, password, host, port⟩, rest)

/-- The authority of a file: a host without credentials or port, or none. A drive is no host,
and the local host is none. -/
def readFileAuthority (cs : List Char) : Except UrlError (Authority × List Char) := do
  if isDrive (String.ofList cs) then return (⟨"", none, .name "", none⟩, '/' :: cs)
  else if cs = [] then return (⟨"", none, .name "", none⟩, [])
  else
    let host ← (Host.parse toAscii cs).mapError .host
    return (⟨"", none, if host = .name "localhost" then .name "" else host, none⟩, [])

/-! ### URLs -/

/-- The URL with this query and fragment. -/
def withEnd (u : Url) (p : Parts) : Url :=
  { u with
    query := p.query.map (encoded (querySet (specialPort? u.scheme).isSome))
    fragment := p.fragment.map (encoded fragmentSet) }

/-- The URL whose authority begins the text. -/
def afterSlashes (scheme : String) (p : Parts) (cs : List Char) : Except UrlError Url := do
  let special := (specialPort? scheme).isSome
  let word := cs.takeWhile (!isSlash special ·)
  let path := cs.drop word.length
  let followed := path ≠ [] || p.query.isSome || p.fragment.isSome
  let (a, rest) ←
    if scheme = "file" then readFileAuthority toAscii word
    else readAuthority toAscii scheme followed word
  return withEnd ⟨scheme, some a, .segments (segmentsFrom scheme [] (rest ++ path)), none, none⟩ p

/-- The URL with this scheme and the rest of its text. -/
def parseWith (scheme : String) (p : Parts) : Except UrlError Url :=
  if scheme = "file" then
    match p.body with
    | c :: d :: rest =>
      if isSlash true c && isSlash true d then afterSlashes toAscii scheme p rest
      else afterSlashes toAscii scheme p ('/' :: p.body)
    | cs => afterSlashes toAscii scheme p ('/' :: cs)
  else if (specialPort? scheme).isSome then
    afterSlashes toAscii scheme p (p.body.dropWhile (isSlash true))
  else
    match p.body with
    | '/' :: '/' :: rest => afterSlashes toAscii scheme p rest
    | '/' :: rest =>
      .ok (withEnd ⟨scheme, none, .segments (segmentsFrom scheme [] ('/' :: rest)), none, none⟩ p)
    | cs => .ok (withEnd ⟨scheme, none, .bare (encoded [] cs), none, none⟩ p)

/-- The URL that a text spells. -/
def parse (s : String) : Except UrlError Url :=
  match scheme? (clean s) with
  | some (scheme, rest) => parseWith toAscii scheme (Parts.of rest)
  | none => .error .noBase

/-- The URL of a text without a scheme, relative to a URL with segments. -/
def relative (base : Url) (segments : List String) (p : Parts) : Except UrlError Url :=
  let special := (specialPort? base.scheme).isSome
  let path (acc : List String) (cs : List Char) : Except UrlError Url :=
    .ok (withEnd { base with path := .segments (segmentsFrom base.scheme acc cs) } p)
  match p.body with
  | [] =>
    let query := if p.query.isSome then p.query.map (encoded (querySet special)) else base.query
    .ok { base with query, fragment := p.fragment.map (encoded fragmentSet) }
  | c :: cs =>
    if isSlash special c then
      match cs with
      | d :: rest =>
        if isSlash special d then afterSlashes toAscii base.scheme p rest else path [] p.body
      | [] => path [] p.body
    else path (shorten (base.scheme = "file") segments.reverse) p.body

/-- The URL that a text spells relative to `base`. -/
def join (base : Url) (s : String) : Except UrlError Url :=
  let cs := clean s
  match scheme? cs with
  | some (scheme, rest) =>
    let p := Parts.of rest
    let slashes := p.body.takeWhile (isSlash true)
    match base.path with
    | .segments list =>
      if (specialPort? scheme).isSome ∧ scheme = base.scheme ∧ slashes.length < 2 then
        relative toAscii base list p
      else parseWith toAscii scheme p
    | .bare _ => parseWith toAscii scheme p
  | none =>
    match base.path with
    | .segments list => relative toAscii base list (Parts.of cs)
    | .bare _ =>
      match cs with
      | '#' :: fragment => .ok { base with fragment := some (encoded fragmentSet fragment) }
      | _ => .error .noRelative

example : (parse Host.plainName? " http://A.Example:080/b/../c d?x#y ").toOption.map render =
    some "http://a.example/c%20d?x#y" := by decide +kernel
example : (parse Host.plainName? "http://[::1/").toOption = none := by decide +kernel
example : (parse Host.plainName? "foo:/a/..//b").toOption.map render = some "foo:/.//b" := by
  decide +kernel
example : ((parse Host.plainName? "http://a/b/c?d").toOption.bind fun u =>
    (u.join Host.plainName? "../e").toOption).map render = some "http://a/e" := by decide +kernel

end Url

end ServiceHealth.Net
