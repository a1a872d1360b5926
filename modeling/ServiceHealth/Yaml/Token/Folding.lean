import ServiceHealth.Yaml.Cursor

/-!
# Line folding

Between two pieces of a scalar that runs over several lines lie spaces or breaks. Spaces on
one line stand as they are. A single break becomes a space; of several breaks the first is
dropped and the others stand. A break that is a separator of its own stays.

## Main definitions

* `Gap`, `Gap.text` — what lies between two pieces and what it is read as.
* `Gap.take` — the gap at a cursor.
-/

namespace ServiceHealth.Yaml

/-- What lies between two pieces of a scalar: spaces on the line, or a first break, which is
empty when it was escaped, with the texts of all further breaks. -/
structure Gap where
  spaces : List Char := []
  first : Option (List Char) := none
  others : List Char := []
  deriving Repr, Inhabited

namespace Gap

/-- The gap runs over a line end. -/
def isBroken (g : Gap) : Bool := g.first.isSome

/-- What the gap is read as. -/
def text (g : Gap) : List Char :=
  match g.first with
  | none => g.spaces
  | some ['\n'] => if g.others = [] then [' '] else g.others
  | some b => b ++ g.others

/-- The gap at a cursor, added to one that has begun. On a new line a tab left of column
`indent` is refused. At most `fuel` characters are read. -/
def takeWithin (indent : Nat) : (fuel : Nat) → Cursor → Gap → Option (Cursor × Gap)
  | 0, c, g => some (c, g)
  | fuel + 1, c, g =>
    match c.rest with
    | [] => some (c, g)
    | x :: _ =>
      if isBlank x then
        if g.isBroken then
          if x = '\t' ∧ c.column < indent then none
          else takeWithin indent fuel c.skip g
        else takeWithin indent fuel c.skip { g with spaces := g.spaces ++ [x] }
      else if isBreak x then
        if g.isBroken then
          takeWithin indent fuel c.skipBreak { g with others := g.others ++ c.breakText }
        else
          takeWithin indent fuel c.skipBreak { g with spaces := [], first := some c.breakText }
      else some (c, g)

/-- The gap at a cursor, added to one that has begun. -/
def take (indent : Nat) (c : Cursor) (g : Gap) : Option (Cursor × Gap) :=
  takeWithin indent c.rest.length c g

end Gap

end ServiceHealth.Yaml
