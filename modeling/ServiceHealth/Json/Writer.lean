import ServiceHealth.Json.Token

/-!
# Writing JSON documents

The compact form of a document: its tokens in their shortest spelling, with nothing between
them.

## Main definitions

* `Json.tokens` — the tokens of a document, which determine it.
* `Json.render` — its compact text.
-/

namespace ServiceHealth.Json

mutual

/-- The tokens of a document. -/
def tokens : Json → List Token
  | .null => [.null]
  | .bool b => [.bool b]
  | .number n => [.number n]
  | .string s => [.string s]
  | .array items => .openBracket :: tokensOfItems items ++ [.closeBracket]
  | .object fields => .openBrace :: tokensOfFields fields ++ [.closeBrace]

/-- The tokens of several documents, with commas between them. -/
def tokensOfItems : List Json → List Token
  | [] => []
  | [v] => v.tokens
  | v :: vs => v.tokens ++ .comma :: tokensOfItems vs

/-- The tokens of several fields, with commas between them. -/
def tokensOfFields : List (Literal × Json) → List Token
  | [] => []
  | [(k, v)] => .string k :: .colon :: v.tokens
  | (k, v) :: fs => .string k :: .colon :: v.tokens ++ .comma :: tokensOfFields fs

end

/-- The compact text of a document. -/
def render (j : Json) : String := String.ofList (j.tokens.flatMap Token.toChars)

end ServiceHealth.Json
