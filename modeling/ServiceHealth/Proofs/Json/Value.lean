import Mathlib.Logic.Function.Basic
import ServiceHealth.Json.Basic
import ServiceHealth.Proofs.Json.Range

/-!
# The values of documents

What a document says once all choices of its spelling are forgotten: a number is the rational
number that its numeral denotes, a string its text, and an object gives every key the value of the
last field with that key, whatever the order of the others. Two documents are spellings of one
value just when they have the same value. Fields that a later one with their key supersedes may
hold anything.

## Main definitions

* `Value`, `Json.value?` — values, and the value of a document.
* `Json.numerals`, `Json.literals` — all numbers and strings of a document.

## Main results

* `Json.map_value?_field?` — the members of an object are the values of its last fields.
* `Json.isPlain_iff` — the limits of reading, number by number and string by string.
* `Json.exists_value?` — a document within these limits has a value.
-/

namespace ServiceHealth

/-- A JSON value. An object gives a value to some keys. -/
inductive Value
  | null
  | bool (b : Bool)
  | number (q : ℚ)
  | string (s : String)
  | array (items : List Value)
  | object (members : String → Option Value)

namespace Value

/-- The text of a string. -/
def text? : Value → Option String
  | string s => some s
  | _ => none

/-- The value of a key, if the value is an object that has it. -/
def member? (v : Value) (key : String) : Option Value :=
  match v with
  | object members => members key
  | _ => none

end Value

namespace Json

/-! ### Values of documents -/

mutual

/-- The value of a document, if all its strings that count spell a text. -/
def value? : Json → Option Value
  | null => some .null
  | bool b => some (.bool b)
  | number n => some (.number n.value)
  | string l => l.map .string
  | array items => (valuesOfItems? items).map .array
  | object fields => (membersOfFields? fields).map .object

/-- The values of several documents. -/
def valuesOfItems? : List Json → Option (List Value)
  | [] => some []
  | j :: js => do return (← value? j) :: (← valuesOfItems? js)

/-- The members of an object. A field counts if no later one has its key. -/
def membersOfFields? : List (Literal × Json) → Option (String → Option Value)
  | [] => some fun _ => none
  | (k, j) :: fs => do
    let members ← membersOfFields? fs
    let key ← k
    if (members key).isSome then some members
    else (value? j).map fun v => Function.update members key (some v)

end

/-- A field in front of others is the one with its key only if none of them is. -/
theorem field?_cons (k : Literal) (j : Json) (fs : List (Literal × Json)) (key : String) :
    (object ((k, j) :: fs)).field? key =
      ((object fs).field? key).or (if k = some key then some j else none) := by
  simp only [field?, List.reverse_cons, List.find?_append, Option.map_or]
  congr 1
  by_cases hk : k = some key <;> simp [hk]

/-- A field in front of others adds its value to their members if they lack its key. -/
theorem members_cons {k : Literal} {j : Json} {fs : List (Literal × Json)}
    {members : String → Option Value} (h : membersOfFields? ((k, j) :: fs) = some members) :
    ∃ later own, membersOfFields? fs = some later ∧ k = some own ∧
      ((later own).isSome = true ∧ members = later ∨
        later own = none ∧
          ∃ v, j.value? = some v ∧ members = Function.update later own (some v)) := by
  simp only [membersOfFields?, Option.bind_eq_bind, Option.bind_eq_some_iff] at h
  obtain ⟨later, hlater, own, hown, h⟩ := h
  refine ⟨later, own, hlater, hown, ?_⟩
  split at h
  next hsome => exact .inl ⟨hsome, (Option.some.inj h).symm⟩
  next hnone =>
    obtain ⟨v, hv, rfl⟩ := Option.map_eq_some_iff.mp h
    exact .inr ⟨by simpa using hnone, v, hv, rfl⟩

/-- The members of an object are the values of the last fields with their keys. -/
theorem map_value?_field? {fields : List (Literal × Json)} {members : String → Option Value}
    (h : membersOfFields? fields = some members) (key : String) :
    ((object fields).field? key).map value? = (members key).map some := by
  induction fields generalizing members with
  | nil =>
    obtain rfl := Option.some.inj h
    rfl
  | cons f fs ih =>
    obtain ⟨k, j⟩ := f
    obtain ⟨later, own, hlater, rfl, hcases⟩ := members_cons h
    rw [field?_cons, Option.map_or, ih hlater]
    by_cases hkey : own = key
    · subst hkey
      rcases hcases with ⟨hsome, rfl⟩ | ⟨hnone, v, hv, rfl⟩
      · obtain ⟨v, hv⟩ := Option.isSome_iff_exists.mp hsome
        rw [hv]
        rfl
      · simp [hnone, hv]
    · have hmembers : members key = later key := by
        rcases hcases with ⟨-, rfl⟩ | ⟨-, v, -, rfl⟩
        · rfl
        · exact Function.update_of_ne (Ne.symm hkey) ..
      simp [hmembers, hkey]

/-- The value of the last field with a key is the member of the value of the document. -/
theorem map_value?_eq {doc : Json} {v : Value} (h : doc.value? = some v) (key : String) :
    (doc.field? key).map value? = (v.member? key).map some := by
  cases doc with
  | object fields =>
    obtain ⟨members, hmembers, rfl⟩ := Option.map_eq_some_iff.mp h
    exact map_value?_field? hmembers key
  | array items =>
    obtain ⟨vs, -, rfl⟩ := Option.map_eq_some_iff.mp h
    rfl
  | string l =>
    obtain ⟨s, -, rfl⟩ := Option.map_eq_some_iff.mp h
    rfl
  | _ =>
    obtain rfl := Option.some.inj h
    rfl

/-- A document is the string that its value is. -/
theorem text?_eq {doc : Json} {v : Value} (h : doc.value? = some v) : v.text? = doc.text? := by
  cases doc with
  | string l =>
    obtain ⟨s, rfl, rfl⟩ := Option.map_eq_some_iff.mp h
    rfl
  | array items =>
    obtain ⟨vs, -, rfl⟩ := Option.map_eq_some_iff.mp h
    rfl
  | object fields =>
    obtain ⟨members, -, rfl⟩ := Option.map_eq_some_iff.mp h
    rfl
  | _ =>
    obtain rfl := Option.some.inj h
    rfl

/-! ### Limits -/

mutual

/-- The numbers of a document. -/
def numerals : Json → List Numeral
  | number n => [n]
  | array items => numeralsOfItems items
  | object fields => numeralsOfFields fields
  | _ => []

/-- The numbers of several documents. -/
def numeralsOfItems : List Json → List Numeral
  | [] => []
  | j :: js => numerals j ++ numeralsOfItems js

/-- The numbers of the values of several fields. -/
def numeralsOfFields : List (Literal × Json) → List Numeral
  | [] => []
  | (_, j) :: fs => numerals j ++ numeralsOfFields fs

end

mutual

/-- The strings of a document, keys included. -/
def literals : Json → List Literal
  | string l => [l]
  | array items => literalsOfItems items
  | object fields => literalsOfFields fields
  | _ => []

/-- The strings of several documents. -/
def literalsOfItems : List Json → List Literal
  | [] => []
  | j :: js => literals j ++ literalsOfItems js

/-- The strings of several fields, keys included. -/
def literalsOfFields : List (Literal × Json) → List Literal
  | [] => []
  | (k, j) :: fs => k :: literals j ++ literalsOfFields fs

end

/-- Numbers are in range and strings spell texts. -/
def AllPlain (ns : List Numeral) (ls : List Literal) : Prop :=
  (∀ n ∈ ns, n.isFinite = true) ∧ ∀ l ∈ ls, l ≠ none

/-- The parts of what two parts hold. -/
theorem allPlain_append {ns ns' : List Numeral} {ls ls' : List Literal} :
    AllPlain (ns ++ ns') (ls ++ ls') ↔ AllPlain ns ls ∧ AllPlain ns' ls' := by
  simp only [AllPlain, List.forall_mem_append]
  exact and_and_and_comm

/-- A key besides what a part holds. -/
theorem allPlain_cons {ns : List Numeral} {k : Literal} {ls : List Literal} :
    AllPlain ns (k :: ls) ↔ k.isSome = true ∧ AllPlain ns ls := by
  simp only [AllPlain, List.forall_mem_cons, Option.isSome_iff_ne_none]
  exact and_left_comm

mutual

/-- A document is plain if all that it holds is. -/
theorem isPlain_iff : (j : Json) → (j.isPlain = true ↔ AllPlain j.numerals j.literals)
  | null => by simp [isPlain, numerals, literals, AllPlain]
  | bool _ => by simp [isPlain, numerals, literals, AllPlain]
  | number _ => by simp [isPlain, numerals, literals, AllPlain]
  | string _ => by simp [isPlain, numerals, literals, AllPlain, Option.isSome_iff_ne_none]
  | array items => arePlain_iff items
  | object fields => arePlainFields_iff fields

/-- Documents are plain if all that they hold is. -/
theorem arePlain_iff : (js : List Json) →
    (arePlain js = true ↔ AllPlain (numeralsOfItems js) (literalsOfItems js))
  | [] => by simp [arePlain, numeralsOfItems, literalsOfItems, AllPlain]
  | j :: js => by
    rw [arePlain, Bool.and_eq_true, isPlain_iff j, arePlain_iff js, ← allPlain_append]
    rfl

/-- Fields are plain if all that they hold is. -/
theorem arePlainFields_iff : (fs : List (Literal × Json)) →
    (arePlainFields fs = true ↔ AllPlain (numeralsOfFields fs) (literalsOfFields fs))
  | [] => by simp [arePlainFields, numeralsOfFields, literalsOfFields, AllPlain]
  | (k, j) :: fs => by
    rw [arePlainFields, Bool.and_eq_true, Bool.and_eq_true, isPlain_iff j, arePlainFields_iff fs,
      ← allPlain_cons, ← allPlain_append]
    rfl

end

/-- The limits of reading, depth and contents. -/
theorem withinLimits_iff {j : Json} : j.withinLimits = true ↔
    j.depth < 128 ∧ (∀ n ∈ j.numerals, n.isFinite = true) ∧ ∀ l ∈ j.literals, l ≠ none := by
  rw [withinLimits, Bool.and_eq_true, decide_eq_true_eq, isPlain_iff, AllPlain, maxDepth,
    Nat.lt_succ_iff]

mutual

/-- A document whose strings all spell texts has a value. -/
theorem exists_value? : (j : Json) → (∀ l ∈ j.literals, l ≠ none) → ∃ v, j.value? = some v
  | null, _ => ⟨_, rfl⟩
  | bool _, _ => ⟨_, rfl⟩
  | number _, _ => ⟨_, rfl⟩
  | string l, h => by
    obtain ⟨s, rfl⟩ := Option.ne_none_iff_exists'.mp (h l (by simp [literals]))
    exact ⟨_, rfl⟩
  | array items, h => by
    obtain ⟨vs, hvs⟩ := exists_valuesOfItems? items h
    exact ⟨.array vs, by rw [value?, hvs]; rfl⟩
  | object fields, h => by
    obtain ⟨members, hmembers⟩ := exists_membersOfFields? fields h
    exact ⟨.object members, by rw [value?, hmembers]; rfl⟩

/-- Documents whose strings all spell texts have values. -/
theorem exists_valuesOfItems? : (js : List Json) → (∀ l ∈ literalsOfItems js, l ≠ none) →
    ∃ vs, valuesOfItems? js = some vs
  | [], _ => ⟨_, rfl⟩
  | j :: js, h => by
    rw [literalsOfItems, List.forall_mem_append] at h
    obtain ⟨v, hv⟩ := exists_value? j h.1
    obtain ⟨vs, hvs⟩ := exists_valuesOfItems? js h.2
    exact ⟨v :: vs, by rw [valuesOfItems?, hv, hvs]; rfl⟩

/-- Fields whose strings all spell texts have members. -/
theorem exists_membersOfFields? : (fs : List (Literal × Json)) →
    (∀ l ∈ literalsOfFields fs, l ≠ none) → ∃ members, membersOfFields? fs = some members
  | [], _ => ⟨_, rfl⟩
  | (k, j) :: fs, h => by
    rw [literalsOfFields, List.forall_mem_append, List.forall_mem_cons] at h
    obtain ⟨key, rfl⟩ := Option.ne_none_iff_exists'.mp h.1.1
    obtain ⟨v, hv⟩ := exists_value? j h.1.2
    obtain ⟨members, hmembers⟩ := exists_membersOfFields? fs h.2
    rw [membersOfFields?, hmembers, hv]
    by_cases hkey : (members key).isSome = true <;> simp [hkey]

end

end Json

end ServiceHealth
