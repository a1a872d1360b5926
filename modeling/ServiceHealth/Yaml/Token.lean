/-!
# The tokens of a YAML text

Tokens carry the structure that indentation expresses: collections in block style begin with
a token of their own and end with `blockEnd`, and a key is announced before it.

## Main definitions

* `ScalarStyle`, `Scalar` — scalars and how they were written.
* `Token` — the tokens.
-/

namespace ServiceHealth.Yaml

/-- How a scalar was written. -/
inductive ScalarStyle
  | plain | singleQuoted | doubleQuoted | literal | folded
  deriving DecidableEq, Repr, Inhabited

/-- The text of a scalar, how it was written, and its full tag. -/
structure Scalar where
  text : String
  style : ScalarStyle
  tag : Option String := none
  deriving DecidableEq, Repr, Inhabited

/-- A token of a YAML text. -/
inductive Token
  | versionDirective (major minor : Nat)
  | tagDirective (handle start : String)
  | documentStart | documentEnd
  | blockSequenceStart | blockMappingStart | blockEnd
  | flowSequenceStart | flowSequenceEnd | flowMappingStart | flowMappingEnd
  | blockEntry | flowEntry
  | key | value
  | alias (name : String)
  | anchor (name : String)
  | tag (handle suffix : String)
  | scalar (text : String) (style : ScalarStyle)
  deriving DecidableEq, Repr, Inhabited

end ServiceHealth.Yaml
