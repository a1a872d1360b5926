/-!
# Series

A value for each of finitely many keys, in the order in which the keys came up. Updating a
key keeps the values of all others.

## Main definitions

* `Series`, `Series.get?`, `Series.update` — series, looking up and updating.
* `Series.sorted` — the entries in the order of the texts that stand for their keys.

## Main results

* `Series.get?_update_self`, `Series.get?_update_of_ne` — what an update changes.
-/

namespace ServiceHealth.Metrics

/-- A value for each of finitely many keys. -/
structure Series (κ α : Type) where
  entries : List (κ × α) := []
  deriving DecidableEq, Repr, Inhabited

namespace Series

variable {κ α : Type} [DecidableEq κ]

/-- The value of a key in a list of entries. -/
def lookup? (k : κ) : List (κ × α) → Option α
  | [] => none
  | e :: es => if e.1 = k then some e.2 else lookup? k es

/-- The entries with the value of a key replaced, or added at the end. -/
def upsert (k : κ) (f : Option α → α) : List (κ × α) → List (κ × α)
  | [] => [(k, f none)]
  | e :: es => if e.1 = k then (k, f (some e.2)) :: es else e :: upsert k f es

/-- The value of a key, if it has one. -/
def get? (s : Series κ α) (k : κ) : Option α := lookup? k s.entries

/-- The series in which the value of a key is what `f` makes of it. -/
def update (s : Series κ α) (k : κ) (f : Option α → α) : Series κ α := ⟨upsert k f s.entries⟩

theorem lookup?_upsert_self (k : κ) (f : Option α → α) (es : List (κ × α)) :
    lookup? k (upsert k f es) = some (f (lookup? k es)) := by
  induction es with
  | nil => simp [upsert, lookup?]
  | cons e es ih =>
    by_cases h : e.1 = k
    · simp [upsert, lookup?, h]
    · simp [upsert, lookup?, h, ih]

theorem lookup?_upsert_of_ne {k l : κ} (h : l ≠ k) (f : Option α → α) (es : List (κ × α)) :
    lookup? l (upsert k f es) = lookup? l es := by
  induction es with
  | nil => simp [upsert, lookup?, h.symm]
  | cons e es ih =>
    by_cases he : e.1 = k
    · simp [upsert, lookup?, he, h.symm]
    · simp [upsert, lookup?, he, ih]

@[simp] theorem get?_update_self (s : Series κ α) (k : κ) (f : Option α → α) :
    (s.update k f).get? k = some (f (s.get? k)) :=
  lookup?_upsert_self k f s.entries

theorem get?_update_of_ne (s : Series κ α) {k l : κ} (h : l ≠ k) (f : Option α → α) :
    (s.update k f).get? l = s.get? l :=
  lookup?_upsert_of_ne h f s.entries

omit [DecidableEq κ] in
/-- The entries in the order of the texts that stand for their keys. -/
def sorted (s : Series κ α) (texts : κ → List String) : List (κ × α) :=
  s.entries.mergeSort fun a b => !(texts b.1).lex (texts a.1) fun s t => decide (s < t)

end Series

end ServiceHealth.Metrics
