import ServiceHealth.Text.Charset

/-!
# Media types

The value of a `Content-Type` field: a type, a slash, a subtype and parameters. A value that
does not follow the grammar announces nothing.

## Main definitions

* `MediaType.parameters?` — the parameters of a media type.
* `MediaType.label?` — the label of the charset that it announces.
-/

namespace ServiceHealth.Net

/-- The characters of a token: visible ASCII without separators. -/
def isTokenChar (c : Char) : Bool :=
  c.isAlphanum || "!#$%&'*+-.^_\x60|~".toList.contains c

namespace MediaType

/-- The characters that may stand between quotes. -/
def isQuotedChar (c : Char) : Bool := c == ' ' || (0x21 ≤ c.toNat && c.toNat < 0x7F)

/-- A parameter's value, plain or between quotes, and what follows it. -/
def value? : List Char → Option (List Char × List Char)
  | '"' :: cs => do
    let v := cs.takeWhile fun c => c != '"' && isQuotedChar c
    guard (v ≠ [])
    match cs.drop v.length with
    | '"' :: rest => some (v, rest.dropWhile (· == ' '))
    | _ => none
  | cs => some (cs.takeWhile isTokenChar, cs.dropWhile isTokenChar)

/-- The parameters that follow a semicolon, at most `fuel` of them. -/
def parametersFrom? : (fuel : Nat) → List Char → Option (List (List Char × List Char))
  | 0, _ => none
  | fuel + 1, cs => do
    let cs := cs.dropWhile (· == ' ')
    if cs = [] then return []
    let name := cs.takeWhile isTokenChar
    guard (name ≠ [])
    match cs.dropWhile isTokenChar with
    | '=' :: rest =>
      match ← value? rest with
      | (v, []) => return [(name, v)]
      | (v, ';' :: rest) =>
        guard (v ≠ [])
        return (name, v) :: (← parametersFrom? fuel rest)
      | _ => none
    | _ => none

/-- The parameters of a media type. -/
def parameters? (cs : List Char) : Option (List (List Char × List Char)) := do
  guard (cs.takeWhile isTokenChar ≠ [])
  match cs.dropWhile isTokenChar with
  | '/' :: rest =>
    guard (rest.takeWhile isTokenChar ≠ [])
    match rest.dropWhile isTokenChar with
    | [] => some []
    | ';' :: rest => parametersFrom? (rest.length + 1) rest
    | _ => none
  | _ => none

/-- The label of the charset that a media type announces, if it announces one. -/
def label? (value : String) : Option (List Char) := do
  let ps ← parameters? value.toList
  let p ← ps.find? fun p => p.1.map Char.toLower == "charset".toList
  return p.2

example : label? "text/html;x=1; Charset=\"latin1\" " = some "latin1".toList := by decide +kernel
example : label? "charset=latin1" = none := by decide +kernel

end MediaType

end ServiceHealth.Net
