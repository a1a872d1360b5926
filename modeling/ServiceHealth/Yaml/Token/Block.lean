import ServiceHealth.Yaml.Token
import ServiceHealth.Yaml.Cursor

/-!
# Block scalars

A literal scalar keeps its lines, a folded one joins lines that begin without a space. The
header may fix the indentation and says what becomes of the breaks at the end: all but the
first are dropped, or all are, or none is.

## Main definitions

* `Chomping`, `Header` — what the header of a block scalar says.
* `Cursor.block?` — the text of a block scalar, with the cursor after it.
-/

namespace ServiceHealth.Yaml

/-- What becomes of the breaks at the end of a block scalar. -/
inductive Chomping
  | clip | strip | keep
  deriving DecidableEq, Repr, Inhabited

/-- The header of a block scalar: its chomping and the indentation it fixes, zero for
none. -/
structure Header where
  chomping : Chomping := .clip
  increment : Nat := 0
  deriving DecidableEq, Repr, Inhabited

/-- The chomping that a character asks for. -/
def Chomping.ofChar? : Char → Option Chomping
  | '+' => some .keep
  | '-' => some .strip
  | _ => none

/-- The indentation that a character asks for: `some none` for a forbidden zero. -/
def incrementOf? (c : Char) : Option (Option Nat) :=
  if c.isDigit then some (if c = '0' then none else some (c.toNat - '0'.toNat)) else none

/-- The header at a cursor: a chomping and an indentation in either order, each at most
once. -/
def Cursor.header? (c : Cursor) : Option (Cursor × Header) :=
  match c.next?.bind Chomping.ofChar? with
  | some chomping =>
    match (c.at? 1).bind incrementOf? with
    | some none => none
    | some (some n) => some (c.skipMany 2, ⟨chomping, n⟩)
    | none => some (c.skip, ⟨chomping, 0⟩)
  | none =>
    match c.next?.bind incrementOf? with
    | some none => none
    | some (some n) =>
      match (c.at? 1).bind Chomping.ofChar? with
      | some chomping => some (c.skipMany 2, ⟨chomping, n⟩)
      | none => some (c.skip, ⟨.clip, n⟩)
    | none => some (c, {})

/-- Empty lines and indentation before a line of a block scalar. An indentation of zero is
not known yet. The result is the cursor, the widest column met, and the texts of the breaks.
A tab within the indentation is refused. -/
def Cursor.blockBreaks? (indent : Nat) :
    (fuel : Nat) → Cursor → (widest : Nat) → List Char → Option (Cursor × Nat × List Char)
  | 0, _, _, _ => none
  | fuel + 1, c, widest, breaks =>
    let spaces := (c.rest.takeWhile (· == ' ')).length
    let c := c.skipMany (if indent = 0 then spaces else min spaces (indent - c.column))
    let widest := max widest c.column
    match c.rest with
    | x :: _ =>
      if x = '\t' ∧ (indent = 0 ∨ c.column < indent) then none
      else if isBreak x then
        blockBreaks? indent fuel c.skipBreak widest (breaks ++ c.breakText)
      else some (c, widest, breaks)
    | [] => some (c, widest, breaks)

/-- The lines of a block scalar, added to a text that is kept backwards: the break after the
last line, the breaks after it, and whether the last line began with a space. -/
def Cursor.blockLines? (folded : Bool) (indent : Nat) :
    (fuel : Nat) → Cursor → (text first others : List Char) → (blank : Bool) →
      Option (Cursor × List Char × List Char × List Char)
  | 0, _, _, _, _, _ => none
  | fuel + 1, c, text, first, others, blank =>
    if c.column ≠ indent ∨ c.rest.isEmpty then some (c, text, first, others)
    else do
      let nowBlank := c.next?.any isBlank
      let joint :=
        if folded && first = ['\n'] && !blank && !nowBlank then
          (if others.isEmpty then [' '] else []) ++ others
        else first ++ others
      let line := c.rest.takeWhile fun x => !isBreak x
      let c := c.skipMany line.length
      let (after, _, breaks) ← (c.skipBreak?).blockBreaks? indent (c.rest.length + 1) 0 []
      blockLines? folded indent fuel after (line.reverse ++ joint.reverse ++ text)
        c.breakText breaks nowBlank

/-- The text of a block scalar in a collection indented to column `outer`, `-1` for none, and
the cursor after it. -/
def Cursor.block? (c : Cursor) (folded : Bool) (outer : Int) : Option (Cursor × Token) := do
  let (c, header) ← c.skip.header?
  let c := (← c.endOfLine?).skipBreak?
  let fuel := c.rest.length + 1
  let fixed := if header.increment = 0 then 0 else (max outer 0).toNat + header.increment
  let (c, widest, breaks) ← c.blockBreaks? fixed fuel 0 []
  let indent := if fixed = 0 then max widest (max (outer + 1) 1).toNat else fixed
  let (c, text, first, others) ← c.blockLines? folded indent fuel [] [] breaks false
  let tail := match header.chomping with
    | .strip => []
    | .clip => first
    | .keep => first ++ others
  return (c, .scalar (String.ofList (text.reverse ++ tail))
    (if folded then .folded else .literal))

end ServiceHealth.Yaml
