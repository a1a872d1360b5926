import ServiceHealth.Proofs.Json.Reading

/-!
# What is read is written

A text that is read as a document is a text of that document by the grammar, so the texts that
are read are exactly the documents. Both machines are inverted in the same way: each state stands
for what was read up to it, one step adds one character or one token to that, and a run adds the
whole text. The tokens of a document with white space between them are then taken apart along
the document.

## Main definitions

* `Token.Written`, `Token.Spelled` — the characters of a token, and of a sequence of tokens with
  white space between them.
* `Token.Scan.Reads` — the characters read up to a position.
* `Frame.read`, `Build.read` — the tokens read up to a state.

## Main results

* `Token.spelled_of_scan`, `eq_tokens_of_ofTokens?` — what the two machines read.
* `parse?_eq_some_iff` — a text is read as a document just when it is a text of it.
-/

namespace ServiceHealth.Json

section Runs

variable {σ α : Type} {step : σ → α → Option σ} {P : σ → List α → Prop}

/-- **Run.** What every step of a machine preserves, a run preserves. -/
theorem foldlM_induction
    (hstep : ∀ {s read a s'}, P s read → step s a = some s' → P s' (read ++ [a]))
    {s s' : σ} {read as : List α} (h : P s read) (hrun : as.foldlM step s = some s') :
    P s' (read ++ as) := by
  induction as generalizing s read with
  | nil =>
    obtain rfl : s = s' := by simpa using hrun
    rwa [List.append_nil]
  | cons a as ih =>
    rw [List.foldlM_cons, Option.bind_eq_bind, Option.bind_eq_some_iff] at hrun
    obtain ⟨next, hnext, hrest⟩ := hrun
    rw [List.append_cons]
    exact ih (hstep h hnext) hrest

end Runs

/-- White space behind white space. -/
theorem IsSpacing.append {ws ws' : List Char} (h : IsSpacing ws) (h' : IsSpacing ws') :
    IsSpacing (ws ++ ws') :=
  fun c hc => (List.mem_append.mp hc).elim (h c) (h' c)

/-- A character that separates is white space. -/
theorem isSpacing_singleton {c : Char} (h : isSpace c = true) : IsSpacing [c] := by
  intro d hd
  obtain rfl := List.mem_singleton.mp hd
  simpa [isSpace, or_assoc] using h

namespace Token

/-! ### The characters of tokens -/

/-- The characters of a token. -/
inductive Written : Token → List Char → Prop
  | openBrace : Written .openBrace ['{']
  | closeBrace : Written .closeBrace ['}']
  | openBracket : Written .openBracket ['[']
  | closeBracket : Written .closeBracket [']']
  | colon : Written .colon [':']
  | comma : Written .comma [',']
  | null : Written .null ['n', 'u', 'l', 'l']
  | true : Written (.bool Bool.true) ['t', 'r', 'u', 'e']
  | false : Written (.bool Bool.false) ['f', 'a', 'l', 's', 'e']
  | number {n cs} : n.Written cs → Written (.number n) cs
  | string {l cs} : Literal.Written l cs → Written (.string l) ('"' :: cs ++ ['"'])

/-- The characters of a sequence of tokens, with white space around each of them. -/
inductive Spelled : List Token → List Char → Prop
  | nil {ws} : IsSpacing ws → Spelled [] ws
  | cons {t ts ws cs cs'} : IsSpacing ws → Written t cs → Spelled ts cs' →
      Spelled (t :: ts) (ws ++ cs ++ cs')

/-- A character that is a token on its own writes it. -/
theorem written_of_ofPunctuation? {c : Char} {t : Token} (h : ofPunctuation? c = some t) :
    Written t [c] := by
  unfold ofPunctuation? at h
  split at h <;> cases h <;> constructor

/-- What is read as a word writes it. -/
theorem written_of_ofWord? {cs : List Char} {t : Token} (h : ofWord? cs = some t) :
    Written t cs := by
  unfold ofWord? at h
  split at h
  next hnull =>
    cases h
    exact hnull ▸ .null
  next =>
    split at h
    next htrue =>
      cases h
      exact htrue ▸ .true
    next =>
      split at h
      next hfalse =>
        cases h
        exact hfalse ▸ .false
      next =>
        obtain ⟨n, hn, rfl⟩ := Option.map_eq_some_iff.mp h
        exact .number (Numeral.written_of_ofChars? hn)

section Sequences

variable {t : Token} {ts ts' : List Token} {cs cs' ws : List Char}

/-- The first of some tokens, the white space in front of it, and the others. -/
theorem Spelled.uncons (h : Spelled (t :: ts) cs) : ∃ ws cs₁ cs₂, cs = ws ++ cs₁ ++ cs₂ ∧
    IsSpacing ws ∧ Written t cs₁ ∧ Spelled ts cs₂ := by
  cases h with
  | cons hws ht hts => exact ⟨_, _, _, rfl, hws, ht, hts⟩

/-- White space in front of tokens. -/
theorem Spelled.spacing_left (hws : IsSpacing ws) (h : Spelled ts cs) :
    Spelled ts (ws ++ cs) := by
  cases h with
  | nil hcs => exact .nil (hws.append hcs)
  | cons hws' ht hts => simpa using Spelled.cons (hws.append hws') ht hts

/-- Tokens behind tokens. -/
theorem Spelled.append (h : Spelled ts cs) (h' : Spelled ts' cs') :
    Spelled (ts ++ ts') (cs ++ cs') := by
  induction h with
  | nil hws => exact h'.spacing_left hws
  | cons hws ht _ ih => simpa using Spelled.cons hws ht ih

/-- A token behind tokens. -/
theorem Spelled.concat (h : Spelled ts cs) (ht : Written t cs') :
    Spelled (ts ++ [t]) (cs ++ cs') := by
  simpa using h.append (Spelled.cons isSpacing_nil ht (.nil isSpacing_nil))

/-- White space behind tokens. -/
theorem Spelled.spacing_right (h : Spelled ts cs) (hws : IsSpacing ws) :
    Spelled ts (cs ++ ws) := by
  simpa using h.append (.nil hws)

end Sequences

/-! ### Scanning -/

namespace Scan

/-- The characters read up to a position: those of its tokens and then, if a word or a literal is
under way, those of its beginning. -/
inductive Reads : Scan → List Char → Prop
  | between {ts cs} : Spelled ts.reverse cs → Reads ⟨ts, .between⟩ cs
  | word {ts cs read} : Spelled ts.reverse cs → Reads ⟨ts, .word read⟩ (cs ++ read.reverse)
  | literal {ts cs read escaped} : Spelled ts.reverse cs →
      Reads ⟨ts, .literal read escaped⟩ (cs ++ '"' :: read.reverse)

variable {s s' : Scan} {c : Char} {cs : List Char} {ts : List Token}

/-- Outside literals, where a word has ended the tokens are those of the characters read. -/
theorem Reads.endWord (h : Reads s cs) (hplace : ∀ read escaped, s.place ≠ .literal read escaped)
    (hend : s.endWord = some s') : ∃ ts, s' = ⟨ts, .between⟩ ∧ Spelled ts.reverse cs := by
  cases h with
  | between hts =>
    obtain rfl := Option.some.inj hend
    exact ⟨_, rfl, hts⟩
  | word hts =>
    obtain ⟨t, ht, rfl⟩ := Option.map_eq_some_iff.mp hend
    exact ⟨_, rfl, by simpa using hts.concat (written_of_ofWord? ht)⟩
  | literal => exact absurd rfl (hplace _ _)

/-- A character outside quotes is read. -/
theorem Reads.stepOutside (h : Reads s cs)
    (hplace : ∀ read escaped, s.place ≠ .literal read escaped)
    (hstep : s.stepOutside c = some s') : Reads s' (cs ++ [c]) := by
  rw [Scan.stepOutside] at hstep
  split at hstep
  next hspace =>
    obtain ⟨ts, rfl, hts⟩ := h.endWord hplace hstep
    exact .between (hts.spacing_right (isSpacing_singleton hspace))
  next =>
    split at hstep
    next hquote =>
      obtain ⟨ended, hend, rfl⟩ := Option.map_eq_some_iff.mp hstep
      obtain ⟨ts, rfl, hts⟩ := h.endWord hplace hend
      exact hquote ▸ .literal hts
    next =>
      split at hstep
      next t ht =>
        obtain ⟨ended, hend, rfl⟩ := Option.map_eq_some_iff.mp hstep
        obtain ⟨ts, rfl, hts⟩ := h.endWord hplace hend
        exact .between (by simpa using hts.concat (written_of_ofPunctuation? ht))
      -- Any other character goes on with a word or begins one.
      next hbegun =>
        obtain rfl := Option.some.inj hstep
        cases h with
        | between => cases hbegun
        | @word ts cs begun hts =>
          obtain rfl := Place.word.inj hbegun
          simpa using (Reads.word hts : Reads ⟨ts, .word (c :: begun)⟩ _)
        | literal => cases hbegun
      next hword =>
        obtain rfl := Option.some.inj hstep
        cases h with
        | @between ts cs hts => exact (Reads.word hts : Reads ⟨ts, .word [c]⟩ (cs ++ [c].reverse))
        | word => exact absurd rfl (hword _)
        | literal => exact absurd rfl (hplace _ _)

/-- **Step.** A character is read. -/
theorem Reads.step (h : Reads s cs) (hstep : s.step c = some s') : Reads s' (cs ++ [c]) := by
  rw [Scan.step] at hstep
  cases h with
  | between hts => exact (Reads.between hts).stepOutside (by simp) hstep
  | word hts => exact (Reads.word hts).stepOutside (by simp) hstep
  | @literal ts cs read escaped hts =>
    cases escaped with
    | true =>
      obtain rfl := Option.some.inj hstep
      simpa using (Reads.literal hts : Reads ⟨ts, .literal (c :: read) false⟩ _)
    | false =>
      simp only at hstep
      split at hstep
      next hquote =>
        obtain ⟨l, hl, rfl⟩ := Option.map_eq_some_iff.mp hstep
        refine .between ?_
        simpa [hquote] using hts.concat (Written.string (Literal.written_of_ofChars? hl))
      next =>
        obtain rfl := Option.some.inj hstep
        simpa using (Reads.literal hts : Reads ⟨ts, .literal (c :: read) (c = '\\')⟩ _)

/-- At the end of a text the tokens are those of its characters. -/
theorem Reads.finish (h : Reads s cs) (hfinish : s.finish = some ts) : Spelled ts cs := by
  rw [Scan.finish] at hfinish
  split at hfinish
  next => cases hfinish
  next hplace =>
    obtain ⟨ended, hend, rfl⟩ := Option.map_eq_some_iff.mp hfinish
    obtain ⟨ts, rfl, hts⟩ := h.endWord hplace hend
    exact hts

end Scan

/-- **Run.** The tokens of a text are written in it, with white space between them. -/
theorem spelled_of_scan {cs : List Char} {ts : List Token} (h : scan cs = some ts) :
    Spelled ts cs := by
  rw [scan, Option.bind_eq_bind, Option.bind_eq_some_iff] at h
  obtain ⟨s, hrun, hfinish⟩ := h
  have hstart : Scan.Reads Scan.start [] := .between (.nil isSpacing_nil)
  exact (foldlM_induction Scan.Reads.step hstart hrun).finish hfinish

end Token

/-! ### Building -/

/-- The tokens of items with a comma behind each of them. -/
def itemsRead (items : List Json) : List Token := items.flatMap fun v => v.tokens ++ [.comma]

/-- The tokens of fields with a comma behind each of them. -/
def fieldsRead (fields : List (Literal × Json)) : List Token :=
  fields.flatMap fun f => .string f.1 :: .colon :: f.2.tokens ++ [.comma]

/-- An item behind others. -/
theorem tokensOfItems_concat (items : List Json) (v : Json) :
    tokensOfItems (items ++ [v]) = itemsRead items ++ v.tokens := by
  induction items with
  | nil => simp [tokensOfItems, itemsRead]
  | cons w items ih =>
    have hcons : tokensOfItems (w :: (items ++ [v])) =
        w.tokens ++ .comma :: tokensOfItems (items ++ [v]) := by
      cases items <;> rfl
    rw [List.cons_append, hcons, ih]
    simp [itemsRead]

/-- A field behind others. -/
theorem tokensOfFields_concat (fields : List (Literal × Json)) (k : Literal) (v : Json) :
    tokensOfFields (fields ++ [(k, v)]) = fieldsRead fields ++ .string k :: .colon :: v.tokens := by
  induction fields with
  | nil => simp [tokensOfFields, fieldsRead]
  | cons f fields ih =>
    have hcons : tokensOfFields (f :: (fields ++ [(k, v)])) =
        .string f.1 :: .colon :: f.2.tokens ++ .comma :: tokensOfFields (fields ++ [(k, v)]) := by
      cases fields <;> rfl
    rw [List.cons_append, hcons, ih]
    simp [fieldsRead]

/-- The tokens of an unfinished container, up to the value that comes next. -/
def Frame.read : Frame → List Token
  | .array items => .openBracket :: itemsRead items.reverse
  | .object fields k => .openBrace :: fieldsRead fields.reverse ++ [.string k, .colon]

/-- The tokens of unfinished containers, the innermost of which is the first. -/
def framesRead (outer : List Frame) : List Token := outer.reverse.flatMap Frame.read

/-- A container inside others. -/
theorem framesRead_cons (f : Frame) (outer : List Frame) :
    framesRead (f :: outer) = framesRead outer ++ f.read := by
  simp [framesRead]

namespace Build

/-- The tokens read up to a state. -/
def read : Build → List Token
  | .value outer => framesRead outer
  | .firstItem outer => framesRead outer ++ [.openBracket]
  | .firstKey outer => framesRead outer ++ [.openBrace]
  | .key fields outer => framesRead outer ++ .openBrace :: fieldsRead fields.reverse
  | .colon fields k outer =>
    framesRead outer ++ .openBrace :: fieldsRead fields.reverse ++ [.string k]
  | .after v outer => framesRead outer ++ v.tokens

variable {b b' : Build} {t : Token} {ts : List Token}

/-- A token that begins a value is read. -/
theorem read_beginValue {outer : List Frame} (h : beginValue outer t = some b) :
    b.read = framesRead outer ++ [t] := by
  unfold beginValue at h
  split at h <;> cases h <;> rfl

/-- **Step.** A token is read. -/
theorem read_step (h : b.step t = some b') : b'.read = b.read ++ [t] := by
  unfold step at h
  split at h
  case h_1 => exact read_beginValue h
  case h_3 =>
    rw [read_beginValue h, framesRead_cons]
    rfl
  all_goals cases h
  all_goals simp [read, framesRead_cons, Frame.read, tokens, tokensOfItems, tokensOfFields,
    tokensOfItems_concat, tokensOfFields_concat, itemsRead, fieldsRead]

/-- A complete document is what was read. -/
theorem read_of_result? {j : Json} (h : b.result? = some j) : b.read = j.tokens := by
  unfold result? at h
  split at h <;> cases h
  rfl

end Build

/-- **Run.** A document is built from its own tokens only. -/
theorem eq_tokens_of_ofTokens? {ts : List Token} {j : Json} (h : ofTokens? ts = some j) :
    ts = j.tokens := by
  rw [ofTokens?, Option.bind_eq_bind, Option.bind_eq_some_iff] at h
  obtain ⟨b, hrun, hresult⟩ := h
  have hread : b.read = [] ++ ts := by
    refine foldlM_induction (P := fun b ts => b.read = ts) ?_ rfl hrun
    rintro b ts t b' rfl hstep
    exact Build.read_step hstep
  rw [← Build.read_of_result? hresult, hread, List.nil_append]

/-! ### Taking tokens apart -/

open Token

/-- The characters begin with a value, behind white space, and go on with tokens. -/
def Leads (v : Json) (ts : List Token) (cs : List Char) : Prop :=
  ∃ ws cs₁ cs₂, cs = ws ++ cs₁ ++ cs₂ ∧ IsSpacing ws ∧ Written v cs₁ ∧ Spelled ts cs₂

section Leading

variable {v : Json} {t : Token} {ts : List Token} {cs : List Char}

/-- A value that is one token. -/
theorem leads_token (hv : ∀ {cs}, t.Written cs → Written v cs) (h : Spelled (t :: ts) cs) :
    Leads v ts cs := by
  obtain ⟨ws, cs₁, cs₂, rfl, hws, ht, hts⟩ := h.uncons
  exact ⟨ws, cs₁, cs₂, rfl, hws, hv ht, hts⟩

/-- White space between a value and the token behind it belongs to the value. -/
theorem Leads.element (h : Leads v (t :: ts) cs) :
    ∃ cs₁ cs₂ cs₃, cs = cs₁ ++ cs₂ ++ cs₃ ∧ Element v cs₁ ∧ t.Written cs₂ ∧ Spelled ts cs₃ := by
  obtain ⟨ws, cs₁, _, rfl, hws, hv, hrest⟩ := h
  obtain ⟨ws', cs₂, cs₃, rfl, hws', ht, hts⟩ := hrest.uncons
  exact ⟨ws ++ cs₁ ++ ws', cs₂, cs₃, by simp, .mk hws hv hws', ht, hts⟩

/-- White space behind the only value belongs to it. -/
theorem Leads.element_of_nil (h : Leads v [] cs) : Element v cs := by
  obtain ⟨ws, cs₁, ws', rfl, hws, hv, hrest⟩ := h
  cases hrest with
  | nil hws' => exact .mk hws hv hws'

end Leading

mutual

/-- Characters that spell the tokens of a value begin with the value. -/
theorem leads_of_spelled : (v : Json) → {ts : List Token} → {cs : List Char} →
    Spelled (v.tokens ++ ts) cs → Leads v ts cs
  | .null, _, _, h => leads_token (fun ht => by cases ht; exact .null) h
  | .bool true, _, _, h => leads_token (fun ht => by cases ht; exact .true) h
  | .bool false, _, _, h => leads_token (fun ht => by cases ht; exact .false) h
  | .number _, _, _, h => leads_token (fun ht => by cases ht with | number hn => exact .number hn) h
  | .string _, _, _, h => leads_token (fun ht => by cases ht with | string hl => exact .string hl) h
  | .array [], _, _, h => by
    obtain ⟨ws, _, _, rfl, hws, ⟨⟩, hrest⟩ := Spelled.uncons h
    obtain ⟨ws', _, cs, rfl, hws', ⟨⟩, hts⟩ := Spelled.uncons hrest
    exact ⟨ws, '[' :: ws' ++ [']'], cs, by simp, hws, .emptyArray hws', hts⟩
  | .array (v :: vs), ts, _, h => by
    have htokens : (Json.array (v :: vs)).tokens ++ ts =
        .openBracket :: (tokensOfItems (v :: vs) ++ .closeBracket :: ts) := by
      simp [tokens]
    obtain ⟨ws, _, _, rfl, hws, ⟨⟩, hrest⟩ := Spelled.uncons (htokens ▸ h)
    obtain ⟨cs₁, cs₂, rfl, hitems, hts⟩ := items_of_spelled (v :: vs) (by simp) hrest
    exact ⟨ws, '[' :: cs₁ ++ [']'], cs₂, by simp, hws, .array hitems, hts⟩
  | .object [], _, _, h => by
    obtain ⟨ws, _, _, rfl, hws, ⟨⟩, hrest⟩ := Spelled.uncons h
    obtain ⟨ws', _, cs, rfl, hws', ⟨⟩, hts⟩ := Spelled.uncons hrest
    exact ⟨ws, '{' :: ws' ++ ['}'], cs, by simp, hws, .emptyObject hws', hts⟩
  | .object (f :: fs), ts, _, h => by
    have htokens : (Json.object (f :: fs)).tokens ++ ts =
        .openBrace :: (tokensOfFields (f :: fs) ++ .closeBrace :: ts) := by
      simp [tokens]
    obtain ⟨ws, _, _, rfl, hws, ⟨⟩, hrest⟩ := Spelled.uncons (htokens ▸ h)
    obtain ⟨cs₁, cs₂, rfl, hfields, hts⟩ := fields_of_spelled (f :: fs) (by simp) hrest
    exact ⟨ws, '{' :: cs₁ ++ ['}'], cs₂, by simp, hws, .object hfields, hts⟩

/-- Characters that spell the tokens of items and a bracket begin with the items. -/
theorem items_of_spelled : (vs : List Json) → vs ≠ [] → {ts : List Token} → {cs : List Char} →
    Spelled (tokensOfItems vs ++ .closeBracket :: ts) cs →
    ∃ cs₁ cs₂, cs = cs₁ ++ ']' :: cs₂ ∧ Items vs cs₁ ∧ Spelled ts cs₂
  | [], hne, _, _, _ => absurd rfl hne
  | [v], _, _, _, h => by
    obtain ⟨cs₁, _, cs₂, rfl, hv, ⟨⟩, hts⟩ := (leads_of_spelled v h).element
    exact ⟨cs₁, cs₂, by simp, .last hv, hts⟩
  | v :: w :: vs, _, _, _, h => by
    rw [tokensOfItems_cons, List.append_assoc] at h
    obtain ⟨cs₁, _, _, rfl, hv, ⟨⟩, hrest⟩ := (leads_of_spelled v h).element
    obtain ⟨cs₂, cs₃, rfl, hvs, hts⟩ := items_of_spelled (w :: vs) (by simp) hrest
    exact ⟨cs₁ ++ ',' :: cs₂, cs₃, by simp, .more hv hvs, hts⟩

/-- Characters that spell the tokens of fields and a brace begin with the fields. -/
theorem fields_of_spelled : (fs : List (Literal × Json)) → fs ≠ [] → {ts : List Token} →
    {cs : List Char} → Spelled (tokensOfFields fs ++ .closeBrace :: ts) cs →
    ∃ cs₁ cs₂, cs = cs₁ ++ '}' :: cs₂ ∧ Fields fs cs₁ ∧ Spelled ts cs₂
  | [], hne, _, _, _ => absurd rfl hne
  | [(k, v)], _, _, _, h => by
    obtain ⟨ws, _, _, rfl, hws, hkey, hcolon⟩ := Spelled.uncons h
    obtain ⟨ws', _, _, rfl, hws', ⟨⟩, hvalue⟩ := Spelled.uncons hcolon
    obtain ⟨cs₁, _, cs₂, rfl, hv, ⟨⟩, hts⟩ := (leads_of_spelled v hvalue).element
    cases hkey with
    | string hk => exact ⟨_, cs₂, by simp, .last (.mk hws hk hws' hv), hts⟩
  | (k, v) :: f :: fs, _, _, _, h => by
    rw [tokensOfFields_cons, List.append_assoc] at h
    obtain ⟨ws, _, _, rfl, hws, hkey, hcolon⟩ := Spelled.uncons h
    obtain ⟨ws', _, _, rfl, hws', ⟨⟩, hvalue⟩ := Spelled.uncons hcolon
    obtain ⟨cs₁, _, _, rfl, hv, ⟨⟩, hrest⟩ := (leads_of_spelled v hvalue).element
    obtain ⟨cs₂, cs₃, rfl, hfs, hts⟩ := fields_of_spelled (f :: fs) (by simp) hrest
    cases hkey with
    | string hk => exact ⟨_, cs₃, by simp, .more (.mk hws hk hws' hv) hfs, hts⟩

end

/-- What is read as a document is a text of it. -/
theorem isDocument_of_parse? {j : Json} {text : String} (h : Json.parse? text = some j) :
    IsDocument j text := by
  rw [Json.parse?, Option.bind_eq_bind, Option.bind_eq_some_iff] at h
  obtain ⟨ts, hscan, hbuild⟩ := h
  obtain rfl := eq_tokens_of_ofTokens? hbuild
  have hspelled := spelled_of_scan hscan
  rw [← List.append_nil j.tokens] at hspelled
  exact (leads_of_spelled j hspelled).element_of_nil

/-- A text is read as a document just when it is a text of it. -/
theorem parse?_eq_some_iff {j : Json} {text : String} :
    Json.parse? text = some j ↔ IsDocument j text :=
  ⟨isDocument_of_parse?, IsDocument.parse?_eq⟩

/-- A text is read as a value just when it is a text of it and it is within the limits. -/
theorem parseValue?_eq_some_iff {j : Json} {text : String} :
    Json.parseValue? text = some j ↔ IsDocument j text ∧ j.withinLimits = true := by
  rw [Json.parseValue?, Option.filter_eq_some_iff, parse?_eq_some_iff]

/-- A text that is read as a document with this compact form is a text of this document. -/
theorem isDocument_of_render_eq {j : Json} {text : String}
    (h : (Json.parse? text).map render = some j.render) : IsDocument j text := by
  obtain ⟨j', hread, hrender⟩ := Option.map_eq_some_iff.mp h
  exact parse?_eq_some_iff.mp (render_inj hrender ▸ hread)

end ServiceHealth.Json
