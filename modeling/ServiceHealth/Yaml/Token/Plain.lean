import ServiceHealth.Yaml.Token
import ServiceHealth.Yaml.Token.Folding

/-!
# Plain scalars

A scalar without quotes runs up to a colon before a space, a comment, a marker of a document,
in a flow collection also up to a comma or a bracket, and in block style up to a line that is
indented too little. Its lines are folded.

## Main definitions

* `Cursor.plain?` — the text of a plain scalar, with the cursor after it and whether a line
  end was passed last.
-/

namespace ServiceHealth.Yaml

/-- A bracket or brace. -/
def isBracket (c : Char) : Bool := c == '[' || c == ']' || c == '{' || c == '}'

/-- A piece of a plain scalar, up to a space, a line end or an indicator: its text backwards.
In a flow collection a colon before an indicator is refused. -/
def Cursor.plainPiece? (flow : Bool) :
    (fuel : Nat) → Cursor → List Char → Option (Cursor × List Char)
  | 0, c, text => some (c, text)
  | fuel + 1, c, text =>
    match c.rest with
    | [] => some (c, text)
    | x :: cs =>
      if isBlank x || isBreak x then some (c, text)
      else if flow && x = ':' &&
          cs.head?.any (fun y => y == ',' || y == '?' || isBracket y) then none
      else if (x = ':' && endsWord cs.head?) || (flow && (x = ',' || isBracket x)) then
        some (c, text)
      else plainPiece? flow fuel c.skip (x :: text)

/-- The pieces of a plain scalar, added to a text that is kept backwards, after a gap. The
result says whether the last gap runs over a line end with no piece after it. -/
def Cursor.plainPieces? (flow : Bool) (indent : Nat) :
    (fuel : Nat) → Cursor → List Char → Gap → Option (Cursor × List Char × Bool)
  | 0, _, _, _ => none
  | fuel + 1, c, text, gap => do
    if c.atDocumentMarker || c.isAt '#' then return (c, text, gap.isBroken)
    let (after, piece) ← c.plainPiece? flow c.rest.length []
    let (text, gap) :=
      if piece.isEmpty then (text, gap)
      else (piece ++ gap.text.reverse ++ text, ({} : Gap))
    match after.next? with
    | some x =>
      if !(isBlank x || isBreak x) then return (after, text, gap.isBroken)
    | none => return (after, text, gap.isBroken)
    let (after, gap) ← gap.take indent after
    if !flow && after.column < indent then return (after, text, gap.isBroken)
    plainPieces? flow indent fuel after text gap

/-- The text of a plain scalar in a collection whose content is indented to column `indent`,
the cursor after it, and whether a line end was passed last. -/
def Cursor.plain? (c : Cursor) (flow : Bool) (indent : Nat) : Option (Cursor × Token × Bool) := do
  let (after, text, broken) ← c.plainPieces? flow indent (c.rest.length + 1) [] {}
  return (after, .scalar (String.ofList text.reverse) .plain, broken)

end ServiceHealth.Yaml
