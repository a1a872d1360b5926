import ServiceHealth.Json.Token

/-!
# Reading JSON documents

A document is built from its tokens by a machine with a stack of unfinished containers. Each
state stands for the tokens read so far, which is what makes reading exact: the machine ends
with a document just when the tokens are those of the document.

## Main definitions

* `Build`, `Build.step` — the machine.
* `Json.parse?` — the document that a text spells, of any depth and with any numbers.
* `Json.parseValue?` — the same for documents within the limits of values.
-/

namespace ServiceHealth.Json

/-- An unfinished container: what is in it so far, backwards, and for an object the key whose
value comes next. -/
inductive Frame
  | array (items : List Json)
  | object (fields : List (Literal × Json)) (key : Literal)

/-- The state of reading: what may come next, inside which unfinished containers. -/
inductive Build
  | value (outer : List Frame)
  | firstItem (outer : List Frame)
  | firstKey (outer : List Frame)
  | key (fields : List (Literal × Json)) (outer : List Frame)
  | colon (fields : List (Literal × Json)) (key : Literal) (outer : List Frame)
  | after (v : Json) (outer : List Frame)

namespace Build

/-- Nothing read yet. -/
def start : Build := .value []

/-- A token where a value has to begin. -/
def beginValue (outer : List Frame) : Token → Option Build
  | .null => some (.after .null outer)
  | .bool b => some (.after (.bool b) outer)
  | .number n => some (.after (.number n) outer)
  | .string s => some (.after (.string s) outer)
  | .openBracket => some (.firstItem outer)
  | .openBrace => some (.firstKey outer)
  | _ => none

/-- One token. -/
def step : Build → Token → Option Build
  | .value outer, t => beginValue outer t
  | .firstItem outer, .closeBracket => some (.after (.array []) outer)
  | .firstItem outer, t => beginValue (.array [] :: outer) t
  | .firstKey outer, .closeBrace => some (.after (.object []) outer)
  | .firstKey outer, .string k => some (.colon [] k outer)
  | .firstKey _, _ => none
  | .key fields outer, .string k => some (.colon fields k outer)
  | .key .., _ => none
  | .colon fields k outer, .colon => some (.value (.object fields k :: outer))
  | .colon .., _ => none
  | .after v (.array items :: outer), .comma => some (.value (.array (v :: items) :: outer))
  | .after v (.array items :: outer), .closeBracket =>
    some (.after (.array (v :: items).reverse) outer)
  | .after v (.object fields k :: outer), .comma => some (.key ((k, v) :: fields) outer)
  | .after v (.object fields k :: outer), .closeBrace =>
    some (.after (.object ((k, v) :: fields).reverse) outer)
  | .after .., _ => none

/-- The document, once it is complete. -/
def result? : Build → Option Json
  | .after v [] => some v
  | _ => none

end Build

/-- The document that a sequence of tokens spells. -/
def ofTokens? (ts : List Token) : Option Json := do
  (← ts.foldlM Build.step Build.start).result?

end ServiceHealth.Json

namespace ServiceHealth

/-- The document that a text spells. -/
def Json.parse? (s : String) : Option Json := do
  Json.ofTokens? (← Json.Token.scan s.toList)

/-- The document that a text spells, if it is within the limits of values. -/
def Json.parseValue? (s : String) : Option Json :=
  (Json.parse? s).filter Json.withinLimits

end ServiceHealth
