import ServiceHealth.Yaml.Token
import ServiceHealth.Yaml.Token.Folding
import ServiceHealth.Number.Radix

/-!
# Quoted scalars

Between single quotes a quote is written twice. Between double quotes a backslash begins an
escape, and at the end of a line it joins the next line without a space. Both kinds may run
over several lines, which are folded.

## Main definitions

* `escape?` — the character that an escape stands for.
* `Cursor.quoted?` — the text up to the closing quote, with the cursor after it.
-/

namespace ServiceHealth.Yaml

/-- The character with this number, if it is one. -/
def scalarValue? (n : Nat) : Option Char :=
  if h : n.isValidChar then some (Char.ofNatAux n h) else none

/-- The character that a one-letter escape stands for. -/
def letterEscape? : Char → Option Char
  | '0' => some '\x00'
  | 'a' => some '\x07'
  | 'b' => some '\x08'
  | 't' => some '\t'
  | '\t' => some '\t'
  | 'n' => some '\n'
  | 'v' => some '\x0b'
  | 'f' => some '\x0c'
  | 'r' => some '\r'
  | 'e' => some '\x1b'
  | ' ' => some ' '
  | '"' => some '"'
  | '/' => some '/'
  | '\\' => some '\\'
  | 'N' => some '\u0085'
  | '_' => some '\u00a0'
  | 'L' => some '\u2028'
  | 'P' => some '\u2029'
  | _ => none

/-- How many hexadecimal digits follow the letter of a numeric escape. -/
def escapeWidth : Char → Nat
  | 'x' => 2
  | 'u' => 4
  | 'U' => 8
  | _ => 0

/-- The character that an escape stands for, and the number of characters after the
backslash. -/
def escape? : List Char → Option (Char × Nat)
  | [] => none
  | e :: cs =>
    match escapeWidth e with
    | 0 => (letterEscape? e).map (·, 1)
    | width => do
      guard (width ≤ cs.length)
      let c ← scalarValue? (← Number.numberIn? 16 (cs.take width))
      return (c, width + 1)

/-- A piece of a quoted scalar, up to a space, a line end or the closing quote: its text
backwards, and the gap that an escaped line end begins. -/
def Cursor.quotedPiece? (single : Bool) :
    (fuel : Nat) → Cursor → List Char → Option (Cursor × List Char × Gap)
  | 0, c, text => some (c, text, {})
  | fuel + 1, c, text =>
    match c.rest with
    | [] => some (c, text, {})
    | x :: cs =>
      if isBlank x || isBreak x then some (c, text, {})
      else if single && x = '\'' && cs.head? = some '\'' then
        quotedPiece? single fuel (c.skipMany 2) ('\'' :: text)
      else if x = (if single then '\'' else '"') then some (c, text, {})
      else if !single && x = '\\' then
        match cs with
        | y :: _ =>
          if isBreak y then some (c.skip.skipBreak, text, { first := some [] })
          else
            match escape? cs with
            | none => none
            | some (e, n) => quotedPiece? single fuel (c.skipMany (n + 1)) (e :: text)
        | [] => none
      else quotedPiece? single fuel c.skip (x :: text)

/-- The pieces of a quoted scalar, added to a text that is kept backwards. -/
def Cursor.quotedPieces? (single : Bool) :
    (fuel : Nat) → Cursor → List Char → Option (Cursor × List Char)
  | 0, _, _ => none
  | fuel + 1, c, text => do
    if c.atDocumentMarker || c.rest.isEmpty then none
    let (c, text, gap) ← c.quotedPiece? single c.rest.length text
    if c.isAt (if single then '\'' else '"') then return (c.skip, text)
    let (c, gap) ← gap.take 0 c
    quotedPieces? single fuel c (gap.text.reverse ++ text)

/-- The text of a quoted scalar, from its opening quote on, and the cursor after it. -/
def Cursor.quoted? (c : Cursor) (single : Bool) : Option (Cursor × Token) := do
  let (after, text) ← c.skip.quotedPieces? single (c.rest.length + 1) []
  return (after, .scalar (String.ofList text.reverse)
    (if single then .singleQuoted else .doubleQuoted))

end ServiceHealth.Yaml
