import ServiceHealth.Proofs.Json.Scan

/-!
# Reading documents

Every text that the grammar makes a document is read as that document, and the compact form of
a document is such a text. The machine that builds documents reaches, from a place where a value
has to begin and over the tokens of a value, the place behind that value.

## Main results

* `foldlM_tokens` — building a value from its tokens.
* `IsDocument.parse?_eq` — every text of a document is read.
* `isDocument_render`, `parse?_render` — the compact form is a text of its document.
* `render_inj` — documents with one compact form are the same.
* `render_array` — the compact form of an array is made of those of its items.
-/

namespace ServiceHealth.Json

open Token

/-! ### Building -/

/-- Items behind the first one begin with a comma. -/
theorem tokensOfItems_cons (v w : Json) (vs : List Json) :
    tokensOfItems (v :: w :: vs) = v.tokens ++ .comma :: tokensOfItems (w :: vs) := rfl

/-- Fields behind the first one begin with a comma. -/
theorem tokensOfFields_cons (k : Literal) (v : Json) (f : Literal × Json)
    (fs : List (Literal × Json)) : tokensOfFields ((k, v) :: f :: fs) =
      .string k :: .colon :: v.tokens ++ .comma :: tokensOfFields (f :: fs) := rfl

/-- The first item of an array is built like a value inside the array. -/
theorem foldlM_firstItem (v : Json) (ts : List Token) (outer : List Frame) :
    (v.tokens ++ ts).foldlM Build.step (.firstItem outer) =
      (v.tokens ++ ts).foldlM Build.step (.value (.array [] :: outer)) := by
  cases v <;> rfl

mutual

/-- **Step.** From where a value has to begin, its tokens lead behind it. -/
theorem foldlM_tokens : (v : Json) → (outer : List Frame) →
    v.tokens.foldlM Build.step (.value outer) = some (.after v outer)
  | .null, _ => rfl
  | .bool _, _ => rfl
  | .number _, _ => rfl
  | .string _, _ => rfl
  | .array [], _ => rfl
  | .array (v :: vs), outer => by
    have hitems := foldlM_items (v :: vs) (by simp) [] outer
    have hfirst : (Json.array (v :: vs)).tokens.foldlM Build.step (.value outer) =
        (tokensOfItems (v :: vs) ++ [Token.closeBracket]).foldlM Build.step
          (.value (.array [] :: outer)) := by
      cases vs with
      | nil => exact foldlM_firstItem v _ outer
      | cons w vs =>
        rw [tokens, tokensOfItems_cons, List.cons_append, List.append_assoc]
        exact foldlM_firstItem v _ outer
    rw [hfirst, hitems]
    rfl
  | .object [], _ => rfl
  | .object (f :: fs), outer => by
    have hfields := foldlM_fields (f :: fs) (by simp) [] outer
    have hfirst : (Json.object (f :: fs)).tokens.foldlM Build.step (.value outer) =
        (tokensOfFields (f :: fs) ++ [Token.closeBrace]).foldlM Build.step (.key [] outer) := by
      cases fs <;> rfl
    rw [hfirst, hfields]
    rfl

/-- The items of an array and the bracket behind them complete it. -/
theorem foldlM_items : (vs : List Json) → vs ≠ [] → (read : List Json) → (outer : List Frame) →
    (tokensOfItems vs ++ [Token.closeBracket]).foldlM Build.step (.value (.array read :: outer)) =
      some (.after (.array (read.reverse ++ vs)) outer)
  | [], hne, _, _ => absurd rfl hne
  | [v], _, read, outer => by
    have hv := foldlM_tokens v (.array read :: outer)
    rw [tokensOfItems, foldlM_append_of_eq_some hv]
    simp [Build.step]
  | v :: w :: vs, _, read, outer => by
    have hv := foldlM_tokens v (.array read :: outer)
    have hvs := foldlM_items (w :: vs) (by simp) (v :: read) outer
    rw [tokensOfItems_cons, List.append_assoc, foldlM_append_of_eq_some hv, List.cons_append,
      foldlM_cons_of_eq_some rfl, hvs]
    simp

/-- The fields of an object and the brace behind them complete it. -/
theorem foldlM_fields : (fs : List (Literal × Json)) → fs ≠ [] →
    (read : List (Literal × Json)) → (outer : List Frame) →
    (tokensOfFields fs ++ [Token.closeBrace]).foldlM Build.step (.key read outer) =
      some (.after (.object (read.reverse ++ fs)) outer)
  | [], hne, _, _ => absurd rfl hne
  | [(k, v)], _, read, outer => by
    have hv := foldlM_tokens v (.object read k :: outer)
    rw [tokensOfFields, List.cons_append, foldlM_cons_of_eq_some rfl, List.cons_append,
      foldlM_cons_of_eq_some rfl, foldlM_append_of_eq_some hv]
    simp [Build.step]
  | (k, v) :: f :: fs, _, read, outer => by
    have hv := foldlM_tokens v (.object read k :: outer)
    have hfs := foldlM_fields (f :: fs) (by simp) ((k, v) :: read) outer
    rw [tokensOfFields_cons, List.append_assoc, List.cons_append, foldlM_cons_of_eq_some rfl,
      List.cons_append, foldlM_cons_of_eq_some rfl, foldlM_append_of_eq_some hv,
      List.cons_append, foldlM_cons_of_eq_some rfl, hfs]
    simp

end

/-- A document is built from its tokens. -/
theorem ofTokens?_tokens (j : Json) : ofTokens? j.tokens = some j := by
  rw [ofTokens?, Build.start, foldlM_tokens j []]
  rfl

/-- **Run.** Every text of a document is read as that document. -/
theorem IsDocument.parse?_eq {j : Json} {text : String} (h : IsDocument j text) :
    Json.parse? text = some j := by
  rw [Json.parse?, h.scan_eq, Option.bind_eq_bind, Option.bind_some, ofTokens?_tokens]

/-- A text is the text of one document only. -/
theorem IsDocument.unique {j j' : Json} {text : String} (h : IsDocument j text)
    (h' : IsDocument j' text) : j = j' := by
  have heq := h.parse?_eq.symm.trans h'.parse?_eq
  exact Option.some.inj heq

/-- Within the limits of values every text of a document is read as a value, and beyond them
none is. -/
theorem IsDocument.parseValue?_eq {j : Json} {text : String} (h : IsDocument j text) :
    Json.parseValue? text = if j.withinLimits then some j else none := by
  rw [Json.parseValue?, h.parse?_eq, Option.filter_some]

/-! ### The compact form -/

/-- No white space is white space. -/
theorem isSpacing_nil : IsSpacing [] := by simp [IsSpacing]

/-- A value with no white space around it. -/
theorem Written.element {v : Json} {cs : List Char} (h : Written v cs) : Element v cs := by
  simpa using Element.mk isSpacing_nil h isSpacing_nil

mutual

/-- The shortest spellings of its tokens write a value. -/
theorem written_tokens : (v : Json) → Written v (v.tokens.flatMap Token.toChars)
  | .null => .null
  | .bool true => .true
  | .bool false => .false
  | .number n => by simpa [tokens, Token.toChars] using Written.number n.written_toChars
  | .string l => by
    simpa [tokens, Token.toChars] using Written.string (Literal.written_toChars l)
  | .array [] => .emptyArray isSpacing_nil
  | .array (v :: vs) => by
    simpa [tokens, Token.toChars] using Written.array (items_tokens (v :: vs) (by simp))
  | .object [] => .emptyObject isSpacing_nil
  | .object (f :: fs) => by
    simpa [tokens, Token.toChars] using Written.object (fields_tokens (f :: fs) (by simp))

/-- The shortest spellings of their tokens write items. -/
theorem items_tokens : (vs : List Json) → vs ≠ [] →
    Items vs ((tokensOfItems vs).flatMap Token.toChars)
  | [], hne => absurd rfl hne
  | [v], _ => .last (written_tokens v).element
  | v :: w :: vs, _ => by
    have hitems := Items.more (written_tokens v).element (items_tokens (w :: vs) (by simp))
    simpa [tokensOfItems_cons, Token.toChars] using hitems

/-- The shortest spellings of their tokens write fields. -/
theorem fields_tokens : (fs : List (Literal × Json)) → fs ≠ [] →
    Fields fs ((tokensOfFields fs).flatMap Token.toChars)
  | [], hne => absurd rfl hne
  | [(k, v)], _ => by
    have hfield := Field.mk isSpacing_nil (Literal.written_toChars k) isSpacing_nil
      (written_tokens v).element
    simpa [tokensOfFields, Token.toChars] using Fields.last hfield
  | (k, v) :: f :: fs, _ => by
    have hfield := Field.mk isSpacing_nil (Literal.written_toChars k) isSpacing_nil
      (written_tokens v).element
    have hfields := Fields.more hfield (fields_tokens (f :: fs) (by simp))
    simpa [tokensOfFields_cons, Token.toChars] using hfields

end

/-- The compact form of a document is a text of it. -/
theorem isDocument_render (j : Json) : IsDocument j j.render := by
  rw [IsDocument, render, String.toList_ofList]
  exact (written_tokens j).element

/-- The compact form of items is that of each, with commas between them. -/
theorem flatMap_tokensOfItems (vs : List Json) :
    (tokensOfItems vs).flatMap Token.toChars =
      [','].intercalate (vs.map fun v => v.tokens.flatMap Token.toChars) := by
  induction vs with
  | nil => rfl
  | cons v vs ih =>
    cases vs with
    | nil => simp [tokensOfItems]
    | cons w vs =>
      rw [tokensOfItems_cons, List.flatMap_append, List.flatMap_cons, ih, List.map_cons,
        List.map_cons, List.map_cons, List.intercalate_cons_cons, List.append_assoc]
      rfl

/-- The compact form of an array is made of the compact forms of its items. -/
theorem render_array (vs : List Json) :
    (Json.array vs).render = "[" ++ ",".intercalate (vs.map render) ++ "]" := by
  rw [← String.toList_inj]
  have hitems : List.map String.toList (vs.map render) =
      vs.map fun v => v.tokens.flatMap Token.toChars := by
    simp [render, List.map_map, Function.comp_def]
  rw [String.toList_append, String.toList_append, String.toList_intercalate, hitems, render,
    String.toList_ofList, tokens, List.flatMap_append, List.flatMap_cons, flatMap_tokensOfItems]
  rfl

/-- The compact form of a document is read as that document. -/
theorem parse?_render (j : Json) : Json.parse? j.render = some j := (isDocument_render j).parse?_eq

/-- Documents with the same compact form are the same. -/
theorem render_inj {j j' : Json} (h : j.render = j'.render) : j = j' := by
  have hparse := parse?_render j
  rw [h, parse?_render j'] at hparse
  exact (Option.some.inj hparse).symm

end ServiceHealth.Json
