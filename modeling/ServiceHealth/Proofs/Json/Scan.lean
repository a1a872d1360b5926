import ServiceHealth.Json.Writer
import ServiceHealth.Proofs.Json.Literal
import ServiceHealth.Proofs.Json.Numeral

/-!
# The tokens of a document

Scanning the characters of a document gives its tokens. A word ends only with the character
behind it, so a part of a document is scanned up to a position that closes with its tokens: the
position itself may still be inside the last word.

## Main definitions

* `Token.Scan.Closes` — the tokens up to a position.
* `Token.Scans` — the tokens that a part of a text adds.

## Main results

* `Written.scans`, `Element.scans` — the tokens of a value.
* `IsDocument.scan_eq` — the tokens of a document.
-/

namespace ServiceHealth.Json

section Steps

variable {σ α : Type} {step : σ → α → Option σ} {s s' : σ}

/-- A run of a machine that makes its first step. -/
theorem foldlM_cons_of_eq_some {a : α} (h : step s a = some s') (as : List α) :
    (a :: as).foldlM step s = as.foldlM step s' := by
  rw [List.foldlM_cons, h, Option.bind_eq_bind, Option.bind_some]

/-- A run of a machine over two lists that comes through the first one. -/
theorem foldlM_append_of_eq_some {as : List α} (h : as.foldlM step s = some s') (bs : List α) :
    (as ++ bs).foldlM step s = bs.foldlM step s' := by
  rw [List.foldlM_append, h, Option.bind_eq_bind, Option.bind_some]

end Steps

end ServiceHealth.Json

namespace ServiceHealth.Json.Token

namespace Scan

/-- The position is outside literals, and once the word that may be under way there has ended
the tokens, backwards, are these. -/
def Closes (s : Scan) (ts : List Token) : Prop :=
  (∀ read escaped, s.place ≠ .literal read escaped) ∧ s.endWord = some ⟨ts, .between⟩

/-- Between tokens nothing is under way. -/
theorem closes_between (ts : List Token) : Closes ⟨ts, .between⟩ ts := ⟨by simp, rfl⟩

variable {s : Scan} {ts : List Token}

/-- Outside literals a character is taken as such. -/
theorem Closes.step_eq (h : Closes s ts) (c : Char) : s.step c = s.stepOutside c := by
  obtain ⟨us, place⟩ := s
  cases place with
  | between => rfl
  | word read => rfl
  | literal read escaped => exact absurd rfl (h.1 read escaped)

/-- White space ends a word. -/
theorem Closes.step_space (h : Closes s ts) {c : Char} (hc : isSpace c = true) :
    s.step c = some ⟨ts, .between⟩ := by
  rw [h.step_eq, stepOutside, if_pos hc, h.2]

/-- A quote ends a word and begins a literal. -/
theorem Closes.step_quote (h : Closes s ts) : s.step '"' = some ⟨ts, .literal [] false⟩ := by
  rw [h.step_eq, stepOutside, if_neg (by decide), if_pos rfl, h.2, Option.map_some]

/-- Punctuation ends a word and is a token. -/
theorem Closes.step_punctuation (h : Closes s ts) {c : Char} {t : Token}
    (hc : ofPunctuation? c = some t) : s.step c = some ⟨t :: ts, .between⟩ := by
  have hspace : ¬ isSpace c = true := by
    intro hspace
    simp only [isSpace, Bool.or_eq_true, beq_iff_eq] at hspace
    rcases hspace with ((rfl | rfl) | rfl) | rfl <;> cases hc
  have hquote : c ≠ '"' := by
    rintro rfl
    cases hc
  rw [h.step_eq, stepOutside, if_neg hspace, if_neg hquote, hc, h.2]
  rfl

/-- The text may end at a position that closes. -/
theorem Closes.finish_eq (h : Closes s ts) : s.finish = some ts.reverse := by
  obtain ⟨us, place⟩ := s
  cases place with
  | between => simpa [finish, endWord] using h.2
  | word read => simp [finish, h.2]
  | literal read escaped => exact absurd rfl (h.1 read escaped)

end Scan

/-! ### Parts of a text -/

/-- Scanned from between two tokens, the characters add the tokens. -/
def Scans (cs : List Char) (ts : List Token) : Prop :=
  ∀ us, ∃ s, cs.foldlM Scan.step ⟨us, .between⟩ = some s ∧ s.Closes (ts.reverse ++ us)

/-- Nothing adds nothing. -/
theorem scans_nil : Scans [] [] := fun us => ⟨⟨us, .between⟩, rfl, Scan.closes_between us⟩

variable {cs cs' ws : List Char} {ts ts' : List Token}

/-- White space in front adds nothing. -/
theorem Scans.spacing_left (hws : IsSpacing ws) (h : Scans cs ts) : Scans (ws ++ cs) ts := by
  induction ws with
  | nil => exact h
  | cons c ws ih =>
    obtain ⟨hc, hrest⟩ := List.forall_mem_cons.mp hws
    intro us
    obtain ⟨s, hs, hcloses⟩ := ih hrest us
    refine ⟨s, ?_, hcloses⟩
    have hspace : isSpace c = true := by rcases hc with rfl | rfl | rfl | rfl <;> rfl
    rw [List.cons_append, foldlM_cons_of_eq_some ((Scan.closes_between us).step_space hspace)]
    exact hs

/-- White space behind adds nothing. -/
theorem Scans.spacing_right (h : Scans cs ts) (hws : IsSpacing ws) : Scans (cs ++ ws) ts := by
  intro us
  obtain ⟨s, hs, hcloses⟩ := h us
  cases ws with
  | nil => exact ⟨s, by rw [List.append_nil, hs], hcloses⟩
  | cons c ws =>
    obtain ⟨hc, hrest⟩ := List.forall_mem_cons.mp hws
    have hspace : isSpace c = true := by rcases hc with rfl | rfl | rfl | rfl <;> rfl
    obtain ⟨s', hs', hcloses'⟩ := scans_nil.spacing_left hrest (ts.reverse ++ us)
    refine ⟨s', ?_, hcloses'⟩
    rw [foldlM_append_of_eq_some hs, foldlM_cons_of_eq_some (hcloses.step_space hspace)]
    simpa using hs'

/-- Punctuation between two parts. -/
theorem Scans.punctuation (h : Scans cs ts) {c : Char} {t : Token}
    (hc : ofPunctuation? c = some t) (h' : Scans cs' ts') :
    Scans (cs ++ c :: cs') (ts ++ t :: ts') := by
  intro us
  obtain ⟨s, hs, hcloses⟩ := h us
  obtain ⟨s', hs', hcloses'⟩ := h' (t :: (ts.reverse ++ us))
  refine ⟨s', ?_, by simpa using hcloses'⟩
  rw [foldlM_append_of_eq_some hs, foldlM_cons_of_eq_some (hcloses.step_punctuation hc)]
  exact hs'

/-! ### Words -/

/-- A character of a word. -/
def IsWordChar (c : Char) : Prop := isSpace c = false ∧ c ≠ '"' ∧ ofPunctuation? c = none

/-- A character of a word goes on with it. -/
theorem step_word {us : List Token} {read : List Char} {c : Char} (hc : IsWordChar c) :
    Scan.step ⟨us, .word read⟩ c = some ⟨us, .word (c :: read)⟩ := by
  simp [Scan.step, Scan.stepOutside, hc.1, hc.2.1, hc.2.2]

/-- Characters of a word go on with it. -/
theorem foldlM_word {us : List Token} (hcs : ∀ c ∈ cs, IsWordChar c) (read : List Char) :
    cs.foldlM Scan.step ⟨us, .word read⟩ = some ⟨us, .word (cs.reverse ++ read)⟩ := by
  induction cs generalizing read with
  | nil => rfl
  | cons c cs ih =>
    obtain ⟨hc, hrest⟩ := List.forall_mem_cons.mp hcs
    rw [foldlM_cons_of_eq_some (step_word hc), ih hrest]
    simp

/-- A word is one token. -/
theorem scans_word (hne : cs ≠ []) (hcs : ∀ c ∈ cs, IsWordChar c) {t : Token}
    (ht : ofWord? cs = some t) : Scans cs [t] := by
  intro us
  obtain ⟨c, cs, rfl⟩ := List.exists_cons_of_ne_nil hne
  obtain ⟨hc, hrest⟩ := List.forall_mem_cons.mp hcs
  have hfirst : Scan.step ⟨us, .between⟩ c = some ⟨us, .word [c]⟩ := by
    simp [Scan.step, Scan.stepOutside, hc.1, hc.2.1, hc.2.2]
  refine ⟨⟨us, .word (cs.reverse ++ [c])⟩, ?_, by simp, ?_⟩
  · rw [foldlM_cons_of_eq_some hfirst]
    exact foldlM_word hrest [c]
  · simp [Scan.endWord, ht]

/-- The characters of numbers are characters of words. -/
theorem isWordChar_of_isNumeralChar {c : Char} (h : Numeral.IsNumeralChar c) : IsWordChar c := by
  rcases h with hdigit | hother
  · have hne {d : Char} (hd : d.isDigit = false) : c ≠ d := by
      rintro rfl
      rw [hdigit] at hd
      cases hd
    refine ⟨?_, hne rfl, ?_⟩
    · simp [isSpace, hne (d := ' ') rfl, hne (d := '\t') rfl, hne (d := '\n') rfl,
        hne (d := '\r') rfl]
    · exact ofPunctuation?.eq_7 c (hne rfl) (hne rfl) (hne rfl) (hne rfl) (hne rfl) (hne rfl)
  · simp only [List.mem_cons, List.not_mem_nil, or_false] at hother
    rcases hother with rfl | rfl | rfl | rfl | rfl <;> exact ⟨rfl, by decide, rfl⟩

/-- A number is one token. -/
theorem scans_number {n : Numeral} (h : n.Written cs) : Scans cs [.number n] := by
  obtain ⟨hne, hcs⟩ := h.mem
  -- The letters of the three other words are not all characters of numbers.
  have hword {word : List Char} (hw : ¬ ∀ c ∈ word, Numeral.IsNumeralChar c) : cs ≠ word := by
    rintro rfl
    exact hw hcs
  have hnull : cs ≠ "null".toList := hword (by simp [Numeral.IsNumeralChar])
  have htrue : cs ≠ "true".toList := hword (by simp [Numeral.IsNumeralChar])
  have hfalse : cs ≠ "false".toList := hword (by simp [Numeral.IsNumeralChar])
  refine scans_word hne (fun c hc => isWordChar_of_isNumeralChar (hcs c hc)) ?_
  rw [ofWord?, if_neg hnull, if_neg htrue, if_neg hfalse, h.ofChars?_eq, Option.map_some]

/-! ### Literals -/

/-- Inside a literal the characters are kept, and the literal goes on behind them. -/
def Keeps (cs : List Char) : Prop :=
  ∀ us read, cs.foldlM Scan.step ⟨us, .literal read false⟩ =
    some ⟨us, .literal (cs.reverse ++ read) false⟩

/-- A character other than a quote and a backslash is kept. -/
theorem Keeps.plain (h : Keeps cs) {c : Char} (hc : c ≠ '"' ∧ c ≠ '\\') : Keeps (c :: cs) := by
  intro us read
  have hstep : Scan.step ⟨us, .literal read false⟩ c = some ⟨us, .literal (c :: read) false⟩ := by
    simp [Scan.step, hc.1, hc.2]
  rw [foldlM_cons_of_eq_some hstep, h]
  simp

/-- A character behind a backslash is kept. -/
theorem Keeps.escaped (h : Keeps cs) (c : Char) : Keeps ('\\' :: c :: cs) := by
  intro us read
  have hslash : Scan.step ⟨us, .literal read false⟩ '\\' =
      some ⟨us, .literal ('\\' :: read) true⟩ := rfl
  have hstep : Scan.step ⟨us, .literal ('\\' :: read) true⟩ c =
      some ⟨us, .literal (c :: '\\' :: read) false⟩ := rfl
  rw [foldlM_cons_of_eq_some hslash, foldlM_cons_of_eq_some hstep, h]
  simp

/-- The characters between two quotes are kept. -/
theorem keeps_codes {codes : List Nat} (h : Literal.Codes cs codes) : Keeps cs := by
  induction h with
  | nil => exact fun us read => rfl
  | plain hquote hslash _ _ ih => exact ih.plain ⟨hquote, hslash⟩
  | short _ _ ih => exact ih.escaped _
  | digits ha hb hc hd _ ih =>
    have hne {c : Char} {v : Nat} (hc : Number.HexDigit c v) : c ≠ '"' ∧ c ≠ '\\' :=
      ⟨hc.ne_of_not_isAlphanum rfl, hc.ne_of_not_isAlphanum rfl⟩
    exact ((((ih.plain (hne hd)).plain (hne hc)).plain (hne hb)).plain (hne ha)).escaped 'u'

/-- A literal is one token. -/
theorem scans_literal {l : Literal} (h : l.Written cs) :
    Scans ('"' :: cs ++ ['"']) [.string l] := by
  intro us
  have hread := h.ofChars?_eq
  obtain ⟨codes, hcodes, -⟩ := h
  refine ⟨⟨.string l :: us, .between⟩, ?_, Scan.closes_between _⟩
  have hquote : Scan.step ⟨us, .literal (cs.reverse ++ []) false⟩ '"' =
      some ⟨.string l :: us, .between⟩ := by
    simp [Scan.step, hread]
  rw [List.cons_append, foldlM_cons_of_eq_some (Scan.closes_between us).step_quote,
    foldlM_append_of_eq_some (keeps_codes hcodes us []), foldlM_cons_of_eq_some hquote]
  rfl

end ServiceHealth.Json.Token

namespace ServiceHealth.Json

open Token

/-! ### Documents -/

mutual

/-- The characters of a value give its tokens. -/
theorem Written.scans : {v : Json} → {cs : List Char} → Written v cs → Scans cs v.tokens
  | _, _, .null => scans_word (by simp) (by simp [IsWordChar, isSpace, ofPunctuation?]) rfl
  | _, _, .true => scans_word (by simp) (by simp [IsWordChar, isSpace, ofPunctuation?]) rfl
  | _, _, .false => scans_word (by simp) (by simp [IsWordChar, isSpace, ofPunctuation?]) rfl
  | _, _, .number hn => scans_number hn
  | _, _, .string hl => scans_literal hl
  | _, _, .emptyArray hws =>
    scans_nil.punctuation rfl ((scans_nil.spacing_right hws).punctuation rfl scans_nil)
  | _, _, .array hitems => scans_nil.punctuation rfl (hitems.scans.punctuation rfl scans_nil)
  | _, _, .emptyObject hws =>
    scans_nil.punctuation rfl ((scans_nil.spacing_right hws).punctuation rfl scans_nil)
  | _, _, .object hfields => scans_nil.punctuation rfl (hfields.scans.punctuation rfl scans_nil)

/-- White space around a value changes nothing. -/
theorem Element.scans : {v : Json} → {cs : List Char} → Element v cs → Scans cs v.tokens
  | _, _, .mk hws hv hws' => (hv.scans.spacing_left hws).spacing_right hws'

/-- Commas between values are tokens. -/
theorem Items.scans : {vs : List Json} → {cs : List Char} → Items vs cs →
    Scans cs (tokensOfItems vs)
  | _, _, .last hv => hv.scans
  | v :: vs, _, .more hv hvs => by
    have htokens : tokensOfItems (v :: vs) = v.tokens ++ .comma :: tokensOfItems vs := by
      cases hvs <;> rfl
    rw [htokens]
    exact hv.scans.punctuation rfl hvs.scans

/-- A key and the colon behind it are tokens. -/
theorem Field.scans : {f : Literal × Json} → {cs : List Char} → Field f cs →
    Scans cs (.string f.1 :: .colon :: f.2.tokens)
  | (k, v), _, .mk hws hk hws' hv => by
    have hkey := ((scans_literal hk).spacing_left hws).spacing_right hws'
    simpa using hkey.punctuation (c := ':') rfl hv.scans

/-- Commas between fields are tokens. -/
theorem Fields.scans : {fs : List (Literal × Json)} → {cs : List Char} → Fields fs cs →
    Scans cs (tokensOfFields fs)
  | _, _, .last hf => hf.scans
  | (k, v) :: fs, _, .more hf hfs => by
    have htokens : tokensOfFields ((k, v) :: fs) =
        .string k :: .colon :: v.tokens ++ .comma :: tokensOfFields fs := by
      cases hfs <;> rfl
    rw [htokens]
    exact hf.scans.punctuation rfl hfs.scans

end

/-- The tokens of a document are those of its text. -/
theorem IsDocument.scan_eq {j : Json} {text : String} (h : IsDocument j text) :
    Token.scan text.toList = some j.tokens := by
  obtain ⟨s, hs, hcloses⟩ := Element.scans h []
  have hfinish := hcloses.finish_eq
  rw [List.append_nil, List.reverse_reverse] at hfinish
  rw [Token.scan, Scan.start, hs, Option.bind_eq_bind, Option.bind_some, hfinish]

end ServiceHealth.Json
