import ServiceHealth.Settings.Decoding
import ServiceHealth.Yaml.Node

/-!
# YAML as a format for settings

A text is any scalar. A number or a truth value is a plain scalar, or a literal one with the
tag of its kind. An empty value counts as an empty sequence and as an empty record, an
explicit null does not.

## Main definitions

* `Yaml.bool?`, `Yaml.nat?` — the spellings of truth values and of natural numbers.
* `Yaml.format`, `Settings.ofYaml?`.
-/

namespace ServiceHealth

namespace Yaml

/-- The truth value that a word spells. -/
def bool? (s : String) : Option Bool :=
  if ["true", "True", "TRUE"].contains s then some true
  else if ["false", "False", "FALSE"].contains s then some false
  else none

/-- The number that digits denote in a base, if there is at least one and all are such. -/
def inBase? (base : Nat) (cs : List Char) : Option Nat :=
  if cs.isEmpty then none else Number.numberIn? base cs

/-- The natural number that a word spells: decimal without a zero in front, or with a mark of
base 16, 8 or 2, in each case perhaps after a plus sign. -/
def nat? (s : String) : Option Nat :=
  let cs := match s.toList with
    | '+' :: cs => cs
    | cs => cs
  match cs with
  | '0' :: 'x' :: ds => inBase? 16 ds
  | '0' :: 'o' :: ds => inBase? 8 ds
  | '0' :: 'b' :: ds => inBase? 2 ds
  | '0' :: _ :: _ => none
  | cs => inBase? 10 cs

/-- The text of a scalar that may be a value of the kind with this tag. -/
def Scalar.word? (s : Scalar) (tag : String) : Option String :=
  if s.style = .plain ∨ (s.style = .literal ∧ s.tag = some tag) then some s.text else none

/-- A plain scalar without text. -/
def Scalar.isEmpty (s : Scalar) : Bool := s.style = .plain && s.text.isEmpty

namespace Document

/-- The text of a scalar. -/
def text? (d : Document) : Option String :=
  match d.follow with
  | .scalar _ s => some s.text
  | _ => none

/-- The items of a sequence. -/
def items? (d : Document) : Option (List Document) :=
  match d.follow with
  | .sequence _ items => some (items.map d.withNode)
  | .scalar _ s => if s.isEmpty then some [] else none
  | _ => none

/-- The entries of a mapping, each key of which has to be a scalar. -/
def record? (d : Document) : Option (List (String × Document)) :=
  match d.follow with
  | .mapping _ entries => entries.mapM fun e => (d.withNode e.1).text?.map (·, d.withNode e.2)
  | .scalar _ s => if s.isEmpty then some [] else none
  | _ => none

/-- The word of a scalar that may be a value of the kind with this tag. -/
def word? (d : Document) (tag : String) : Option String :=
  match d.follow with
  | .scalar _ s => s.word? tag
  | _ => none

end Document

/-- YAML as a format for settings. -/
def format : Format Document where
  text? := Document.text?
  nat? d := (d.word? "tag:yaml.org,2002:int").bind nat?
  bool? d := (d.word? "tag:yaml.org,2002:bool").bind bool?
  items? := Document.items?
  record? _ := Document.record?

end Yaml

/-- The settings in a YAML document. -/
def Settings.ofYaml? (d : Yaml.Document) : Option Settings := Yaml.format.settings? d

end ServiceHealth
