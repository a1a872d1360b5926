import ServiceHealth.Net.MediaType

/-!
# Request targets and methods

What the first line of a request names: a method, which is a token, and a target. A target is
a path, the asterisk, an authority alone, or a whole URI; only its path matters here. A
fragment is ignored, and so is a query, but the characters of a query are checked.

## Main definitions

* `Method`, `Method.ofString?` — methods.
* `RequestTarget`, `RequestTarget.ofString?` — targets and the texts that are legal.
-/

namespace ServiceHealth.Net

/-- The method of a request. -/
structure Method where
  name : String
  deriving DecidableEq, Repr, Inhabited

namespace Method

/-- The method that asks for a resource. -/
def get : Method := ⟨"GET"⟩

/-- The method that asks for the head of an answer alone. -/
def head : Method := ⟨"HEAD"⟩

/-- The method of this name, which has to be a token. -/
def ofString? (s : String) : Option Method :=
  if s ≠ "" ∧ s.toList.all isTokenChar then some ⟨s⟩ else none

end Method

/-- The target of a request, by its path; it is empty if the target is an authority alone. -/
structure RequestTarget where
  path : String
  deriving DecidableEq, Repr, Inhabited

namespace RequestTarget

/-- How many bytes a target has at most. -/
def maxLength : Nat := 65534

/-- A character that may stand in a path. -/
def isPathChar (c : Char) : Bool :=
  0x21 ≤ c.toNat && c.toNat < 0x7F && !"#<>?\x60".toList.contains c

/-- A character that may stand in a query. -/
def isQueryChar (c : Char) : Bool :=
  0x21 ≤ c.toNat && c.toNat < 0x7F && !"\"#<>".toList.contains c

/-- A character that may stand in an authority. -/
def isAuthorityChar (c : Char) : Bool := c.isAlphanum || "!$&'()*+,-.:;=@[]_~".toList.contains c

/-- The target that a path with a query spells; an empty path is that of the root. -/
def ofPath? (cs : List Char) : Option RequestTarget :=
  let front := cs.takeWhile (· != '#')
  let path := front.takeWhile (· != '?')
  let query := (front.drop path.length).drop 1
  if path.all isPathChar ∧ query.all isQueryChar then
    some ⟨if path = [] then "/" else String.ofList path⟩
  else none

/-- What has been seen of an authority: its colons since the last sign of credentials or
bracket, its brackets, and whether a percent sign has to be followed by the sign of
credentials. -/
structure AuthorityState where
  colons : Nat := 0
  opened : Bool := false
  closed : Bool := false
  percent : Bool := false

/-- One character of an authority. -/
def AuthorityState.step (s : AuthorityState) (c : Char) : Option AuthorityState :=
  if c = ':' then if 8 ≤ s.colons then none else some { s with colons := s.colons + 1 }
  else if c = '[' then if s.percent ∨ s.opened then none else some { s with opened := true }
  else if c = ']' then
    if !s.opened ∨ s.closed then none
    else some { s with closed := true, colons := 0, percent := false }
  else if c = '@' then some { s with colons := 0, percent := false }
  else if c = '%' then some { s with percent := true }
  else if isAuthorityChar c then some s
  else none

/-- The text is an authority: at most one colon before the port, brackets in pairs, no percent
sign outside credentials, and something behind them. -/
def isAuthority (cs : List Char) : Bool :=
  match cs.foldlM AuthorityState.step {} with
  | some s => s.opened == s.closed && s.colons ≤ 1 && cs.getLast? != some '@' && !s.percent
  | none => false

/-- A character that ends an authority. -/
def endsAuthority (c : Char) : Bool := c == '/' || c == '?' || c == '#'

/-- A character of a scheme. -/
def isSchemeChar (c : Char) : Bool := c.isAlphanum || c == '+' || c == '-' || c == '.'

/-- The text behind a scheme and two slashes, if there is one. The scheme has at most 64
characters. -/
def afterScheme? (cs : List Char) : Option (Option (List Char)) :=
  let word := cs.takeWhile isSchemeChar
  match cs.drop word.length with
  | ':' :: '/' :: '/' :: rest => if word.length ≤ 64 then some (some rest) else none
  | _ => some none

/-- The target that a text spells. -/
def ofString? (s : String) : Option RequestTarget :=
  if maxLength < s.utf8ByteSize then none
  else
    match s.toList with
    | [] => none
    | ['*'] => some ⟨"*"⟩
    | '/' :: cs => ofPath? ('/' :: cs)
    | cs => do
      match ← afterScheme? cs with
      | some rest =>
        let authority := rest.takeWhile (!endsAuthority ·)
        guard (authority ≠ [] ∧ isAuthority authority)
        ofPath? (rest.drop authority.length)
      | none =>
        guard (isAuthority cs)
        return ⟨""⟩

example : (ofString? "/a/b%20?x#y").map path = some "/a/b%20" := by decide +kernel
example : (ofString? "http://h:80").map path = some "/" := by decide +kernel
example : (ofString? "host:80").map path = some "" := by decide +kernel
example : ofString? "a/b" = none := by decide +kernel
example : ofString? "/a b" = none := by decide +kernel

end RequestTarget

end ServiceHealth.Net
