import Mathlib.Tactic.SplitIfs
import ServiceHealth.Proofs.Json.Grammar

/-!
# Reading and writing string literals

The characters between two quotes are read as the literal that they write, and what is read as a
literal writes it. The shortest spelling of a literal writes it too.

## Main results

* `Literal.Codes.codes?_eq`, `Literal.text_iff_join?` — reading the two layers of a literal.
* `Literal.Written.ofChars?_eq`, `Literal.written_of_ofChars?` — what is written is read back, and
  nothing else is read.
* `Literal.written_toChars` — the shortest spelling is one.
-/

namespace ServiceHealth.Json.Literal

open Number

/-! ### Codes -/

/-- Four digits are read as a number of sixteen bits. -/
theorem numberIn?_four {a b c d : Char} {w x y z : Nat} (ha : HexDigit a w) (hb : HexDigit b x)
    (hc : HexDigit c y) (hd : HexDigit d z) :
    numberIn? 16 [a, b, c, d] = some (((w * 16 + x) * 16 + y) * 16 + z) := by
  simp [numberIn?, ha.digitIn?_eq, hb.digitIn?_eq, hc.digitIn?_eq, hd.digitIn?_eq]

/-- The codes between two quotes are read. -/
theorem Codes.codes?_eq {cs : List Char} {codes : List Nat} (h : Codes cs codes) :
    codes? cs = some codes := by
  induction h with
  | nil => rfl
  | @plain c cs codes hquote hslash hlow _ ih =>
    have hcond : ¬ (c = '\\' ∨ c = '"' ∨ c.toNat < 0x20) := by
      rintro (h | h | h)
      exacts [hslash h, hquote h, absurd hlow (by omega)]
    rw [codes?.eq_4 c cs (fun _ _ _ _ _ h => absurd h hslash) (fun _ _ h => absurd h hslash),
      if_neg hcond, ih]
    rfl
  | @short e c cs codes hmem _ ih =>
    simp only [shortEscapes, List.mem_cons, Prod.mk.injEq, List.not_mem_nil, or_false] at hmem
    rcases hmem with ⟨rfl, rfl⟩ | ⟨rfl, rfl⟩ | ⟨rfl, rfl⟩ | ⟨rfl, rfl⟩ | ⟨rfl, rfl⟩ | ⟨rfl, rfl⟩ |
      ⟨rfl, rfl⟩ | ⟨rfl, rfl⟩ <;> simp [codes?, shortEscape?, ih]
  | digits ha hb hc hd _ ih =>
    simp [codes?, numberIn?_four ha hb hc hd, ih]

/-- Four characters that are read as a number are digits. -/
theorem hexDigits_of_numberIn? {a b c d : Char} {n : Nat}
    (h : numberIn? 16 [a, b, c, d] = some n) :
    ∃ w x y z, HexDigit a w ∧ HexDigit b x ∧ HexDigit c y ∧ HexDigit d z ∧
      n = ((w * 16 + x) * 16 + y) * 16 + z := by
  simp only [numberIn?, List.foldlM_cons, List.foldlM_nil, Option.bind_eq_bind,
    Option.bind_eq_some_iff, Option.map_eq_some_iff, Option.pure_def, Option.some.injEq,
    Nat.zero_mul, Nat.zero_add] at h
  obtain ⟨_, ⟨w, hw, rfl⟩, _, ⟨x, hx, rfl⟩, _, ⟨y, hy, rfl⟩, _, ⟨z, hz, rfl⟩, rfl⟩ := h
  exact ⟨w, x, y, z, hexDigit_of_digitIn? hw, hexDigit_of_digitIn? hx, hexDigit_of_digitIn? hy,
    hexDigit_of_digitIn? hz, rfl⟩

/-- A letter that is read as an escape is one. -/
theorem mem_shortEscapes {e c : Char} (h : shortEscape? e = some c) : (e, c) ∈ shortEscapes := by
  unfold shortEscape? at h
  split at h <;> cases h <;> decide

/-- What is read as codes spells them. -/
theorem codes_of_codes? {cs : List Char} {codes : List Nat} (h : codes? cs = some codes) :
    Codes cs codes := by
  induction cs using codes?.induct generalizing codes with
  | case1 =>
    obtain rfl := Option.some.inj h
    exact .nil
  | case2 a b c d cs ih =>
    simp only [codes?, Option.bind_eq_bind, Option.bind_eq_some_iff, Option.pure_def,
      Option.some.injEq] at h
    obtain ⟨n, hn, codes, hcodes, rfl⟩ := h
    obtain ⟨w, x, y, z, ha, hb, hc, hd, rfl⟩ := hexDigits_of_numberIn? hn
    exact .digits ha hb hc hd (ih hcodes)
  | case3 e cs hne ih =>
    rw [codes?.eq_3 e cs hne] at h
    simp only [Option.bind_eq_bind, Option.bind_eq_some_iff, Option.pure_def,
      Option.some.injEq] at h
    obtain ⟨c, hc, codes, hcodes, rfl⟩ := h
    exact .short (mem_shortEscapes hc) (ih hcodes)
  | case4 c cs hu he hbad =>
    rw [codes?.eq_4 c cs hu he, if_pos hbad] at h
    cases h
  | case5 c cs hu he hgood ih =>
    rw [codes?.eq_4 c cs hu he, if_neg hgood, Option.map_eq_some_iff] at h
    obtain ⟨codes, hcodes, rfl⟩ := h
    rw [not_or, not_or, Nat.not_lt] at hgood
    exact .plain hgood.2.1 hgood.1 hgood.2.2 (ih hcodes)

/-- A character is within the range of code points, outside that of surrogates. -/
theorem toNat_range (c : Char) : c.toNat < 0x110000 ∧ (c.toNat < 0xD800 ∨ 0xDFFF < c.toNat) := by
  have h : c.toNat < 0xD800 ∨ 0xDFFF < c.toNat ∧ c.toNat < 0x110000 := c.valid
  omega

/-- Every code is within the range of code points. -/
theorem Codes.lt {cs : List Char} {codes : List Nat} (h : Codes cs codes) :
    ∀ n ∈ codes, n < 0x110000 := by
  induction h with
  | nil => simp
  | @plain c _ _ _ _ _ _ ih =>
    exact List.forall_mem_cons.mpr ⟨(toNat_range c).1, ih⟩
  | @short _ c _ _ _ _ ih =>
    exact List.forall_mem_cons.mpr ⟨(toNat_range c).1, ih⟩
  | digits ha hb hc hd _ ih =>
    have := ha.lt
    have := hb.lt
    have := hc.lt
    have := hd.lt
    exact List.forall_mem_cons.mpr ⟨by omega, ih⟩

/-! ### Texts -/

/-- A code point outside the range of surrogates is that of its character. -/
theorem toNat_ofNat {n : Nat} (h : n < 0x110000) (hrange : n < 0xD800 ∨ 0xDFFF < n) :
    (Char.ofNat n).toNat = n := by
  have hvalid : n.isValidChar := by
    rcases hrange with hlow | hhigh
    · exact .inl hlow
    · exact .inr ⟨hhigh, h⟩
  rw [Char.ofNat, dif_pos hvalid]
  rfl

/-- A code that does not begin a pair stands alone. -/
theorem join?_cons {n : Nat} (h : isHigh n = false) (ns : List Nat) :
    join? (n :: ns) = if isLow n then none else (join? ns).map (Char.ofNat n :: ·) := by
  cases ns <;> simp [join?, h]

/-- The text for which codes stand is the one that joining their surrogates gives. -/
theorem Text.join?_eq {codes : List Nat} {cs : List Char} (h : Text codes cs) :
    join? codes = some cs := by
  induction h with
  | nil => rfl
  | @scalar c codes cs _ ih =>
    obtain ⟨-, hrange⟩ := toNat_range c
    have hhigh : isHigh c.toNat = false := by simp [isHigh]; omega
    have hlow : isLow c.toNat = false := by simp [isLow]; omega
    rw [join?_cons hhigh, ih]
    simp [hlow]
  | @pair high low c codes cs hmin hmax lmin lmax hc _ ih =>
    have hhigh : isHigh high = true := by simp [isHigh]; omega
    have hlow : isLow low = true := by simp [isLow]; omega
    rw [join?, if_pos hhigh, if_pos hlow, ih, ← hc]
    simp

/-- Joining the surrogates of codes gives the text for which they stand. -/
theorem text_of_join? {codes : List Nat} (hcodes : ∀ n ∈ codes, n < 0x110000) {cs : List Char}
    (h : join? codes = some cs) : Text codes cs := by
  induction codes using join?.induct generalizing cs with
  | case1 =>
    obtain rfl : [] = cs := by simpa [join?] using h
    exact .nil
  | case2 n hhigh m ns hlow ih =>
    rw [join?, if_pos hhigh, if_pos hlow, Option.map_eq_some_iff] at h
    obtain ⟨cs', hcs', rfl⟩ := h
    simp only [isHigh, isLow, Bool.and_eq_true, decide_eq_true_eq] at hhigh hlow
    refine .pair hhigh.1 hhigh.2 hlow.1 hlow.2 (toNat_ofNat (by omega) (by omega)) ?_
    exact ih (fun k hk => hcodes k (by simp [hk])) hcs'
  | case3 n hhigh m ns hlow => simp [join?, hhigh, hlow] at h
  | case4 n hhigh => simp [join?, hhigh] at h
  | case5 n ns hhigh hlow => simp [join?_cons (Bool.eq_false_iff.mpr hhigh), hlow] at h
  | case6 n ns hhigh hlow ih =>
    rw [join?_cons (Bool.eq_false_iff.mpr hhigh), if_neg hlow, Option.map_eq_some_iff] at h
    obtain ⟨cs', hcs', rfl⟩ := h
    simp only [isHigh, isLow, Bool.and_eq_true, decide_eq_true_eq] at hhigh hlow
    have hn : (Char.ofNat n).toNat = n := toNat_ofNat (hcodes n (by simp)) (by omega)
    have hrest : Text ns cs' := ih (fun k hk => hcodes k (by simp [hk])) hcs'
    have hcode : Text ((Char.ofNat n).toNat :: ns) (Char.ofNat n :: cs') := .scalar hrest
    rwa [hn] at hcode

/-- Codes stand for a text just when joining their surrogates gives it. -/
theorem text_iff_join? {codes : List Nat} (hcodes : ∀ n ∈ codes, n < 0x110000) {cs : List Char} :
    Text codes cs ↔ join? codes = some cs :=
  ⟨Text.join?_eq, text_of_join? hcodes⟩

/-! ### Literals -/

/-- The literal of codes is the text for which they stand, if there is one. -/
theorem Codes.literal_iff {cs : List Char} {codes : List Nat} (h : Codes cs codes) {l : Literal} :
    (∀ s : String, l = some s ↔ Text codes s.toList) ↔ (join? codes).map String.ofList = l := by
  have hjoin (s : String) : (join? codes).map String.ofList = some s ↔ Text codes s.toList := by
    rw [text_iff_join? h.lt, Option.map_eq_some_iff]
    constructor
    · rintro ⟨cs', hcs', rfl⟩
      rwa [String.toList_ofList]
    · intro hs
      exact ⟨s.toList, hs, String.ofList_toList⟩
  constructor
  · exact fun hl => Option.ext fun s => (hjoin s).trans (hl s).symm
  · rintro rfl
    exact hjoin

/-- What the characters between two quotes write is read back. -/
theorem Written.ofChars?_eq {l : Literal} {cs : List Char} (h : Written l cs) :
    ofChars? cs = some l := by
  obtain ⟨codes, hcodes, htext⟩ := h
  rw [ofChars?, hcodes.codes?_eq, Option.map_some, hcodes.literal_iff.mp htext]

/-- What is read as a literal writes it. -/
theorem written_of_ofChars? {l : Literal} {cs : List Char} (h : ofChars? cs = some l) :
    Written l cs := by
  obtain ⟨codes, hread, hl⟩ := Option.map_eq_some_iff.mp h
  have hcodes := codes_of_codes? hread
  exact ⟨codes, hcodes, hcodes.literal_iff.mpr hl⟩

/-- A character is spelled as its code point. -/
theorem Codes.escapeChar_append (c : Char) {cs : List Char} {codes : List Nat}
    (h : Codes cs codes) : Codes (escapeChar c ++ cs) (c.toNat :: codes) := by
  unfold escapeChar
  split_ifs with hquote hslash hb hf hn hr ht hcontrol
  · exact .short (by simp [hquote, shortEscapes]) h
  · exact .short (by simp [hslash, shortEscapes]) h
  · exact .short (by simp [hb, shortEscapes]) h
  · exact .short (by simp [hf, shortEscapes]) h
  · exact .short (by simp [hn, shortEscapes]) h
  · exact .short (by simp [hr, shortEscapes]) h
  · exact .short (by simp [ht, shortEscapes]) h
  · have hzero : HexDigit '0' 0 := hexDigit_digitChar (v := 0) (by decide)
    have hvalue : ((0 * 16 + 0) * 16 + c.toNat / 16) * 16 + c.toNat % 16 = c.toNat := by omega
    have hcodes := Codes.digits hzero hzero (hexDigit_digitChar (v := c.toNat / 16) (by omega))
      (hexDigit_digitChar (v := c.toNat % 16) (by omega)) h
    rwa [hvalue] at hcodes
  · exact .plain hquote hslash (Nat.le_of_not_lt hcontrol) h

/-- The shortest spelling of a text spells its code points. -/
theorem codes_escape (cs : List Char) : Codes (escape cs) (cs.map Char.toNat) := by
  induction cs with
  | nil => exact .nil
  | cons c cs ih => exact ih.escapeChar_append c

/-- The code points of a text stand for it, and for no other. -/
theorem text_map_toNat (cs : List Char) : Text (cs.map Char.toNat) cs := by
  induction cs with
  | nil => exact .nil
  | cons c cs ih => exact .scalar ih

/-- The shortest spelling of a literal writes it. -/
theorem written_toChars (l : Literal) : Written l (toChars l) := by
  cases l with
  | some s =>
    refine ⟨_, codes_escape s.toList, fun s' => ?_⟩
    rw [text_iff_join? (codes_escape s.toList).lt, (text_map_toNat s.toList).join?_eq]
    rw [Option.some.injEq, Option.some.injEq, String.toList_inj, eq_comm]
  | none =>
    have hd : HexDigit 'd' 13 := hexDigit_digitChar (v := 13) (by decide)
    have h8 : HexDigit '8' 8 := hexDigit_digitChar (v := 8) (by decide)
    have h0 : HexDigit '0' 0 := hexDigit_digitChar (v := 0) (by decide)
    have hcodes := Codes.digits hd h8 h0 h0 .nil
    refine ⟨_, hcodes, fun s' => ?_⟩
    rw [text_iff_join? hcodes.lt]
    simp [join?, isHigh]

end ServiceHealth.Json.Literal
