import ServiceHealth.Json.Numeral
import ServiceHealth.Json.Literal

/-!
# JSON documents

A document keeps what its spelling says: the fields of an object in their order with
repetitions, numbers as numerals. Looking a key up finds its last field.

## Main definitions

* `Json` — documents.
* `Json.field?` — the value of a key.
* `Json.depth`, `Json.withinLimits` — how deep containers nest, and the documents that are
  accepted as values.
-/

namespace ServiceHealth

/-- A JSON document. -/
inductive Json
  | null
  | bool (b : Bool)
  | number (n : Json.Numeral)
  | string (s : Json.Literal)
  | array (items : List Json)
  | object (fields : List (Json.Literal × Json))
  deriving Repr, Inhabited

namespace Json

/-- A string that spells the text `s`. -/
abbrev text (s : String) : Json := .string (some s)

/-- The number of a natural number. -/
abbrev nat (n : Nat) : Json := .number (.ofNat n)

/-- The value of the last field with this key, if the document is an object with one. -/
def field? (j : Json) (key : String) : Option Json :=
  match j with
  | object fields => (fields.reverse.find? fun f => f.1 == some key).map Prod.snd
  | _ => none

/-- The text of a string. -/
def text? : Json → Option String
  | string s => s
  | _ => none

mutual

/-- How many containers are nested inside each other at most. -/
def depth : Json → Nat
  | array items => depthOfItems items + 1
  | object fields => depthOfFields fields + 1
  | _ => 0

/-- The greatest depth of several documents. -/
def depthOfItems : List Json → Nat
  | [] => 0
  | v :: vs => max v.depth (depthOfItems vs)

/-- The greatest depth of the values of several fields. -/
def depthOfFields : List (Literal × Json) → Nat
  | [] => 0
  | (_, v) :: fs => max v.depth (depthOfFields fs)

end

mutual

/-- Every number is in range and every literal, keys included, spells a text. -/
def isPlain : Json → Bool
  | number n => n.isFinite
  | string s => s.isSome
  | array items => arePlain items
  | object fields => arePlainFields fields
  | _ => true

/-- Every one of several documents is plain. -/
def arePlain : List Json → Bool
  | [] => true
  | v :: vs => v.isPlain && arePlain vs

/-- Every one of several fields is plain. -/
def arePlainFields : List (Literal × Json) → Bool
  | [] => true
  | (k, v) :: fs => k.isSome && v.isPlain && arePlainFields fs

end

/-- How many containers may be nested inside each other. -/
def maxDepth : Nat := 127

/-- The documents that are accepted as values. -/
def withinLimits (j : Json) : Bool := j.depth ≤ maxDepth && j.isPlain

end Json

end ServiceHealth
