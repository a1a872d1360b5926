import Mathlib.Data.List.TakeWhile
import Mathlib.Data.Option.Basic
import ServiceHealth.Proofs.Json.Grammar

/-!
# Reading and writing numbers

The characters of a number are read as the numeral that they write, and what is read as a numeral
writes it. The spelling of a numeral writes it too. Each part of a number ends where no digit
follows, which is why the parts can be read one after another.

## Main results

* `Numeral.Written.ofChars?_eq`, `Numeral.written_of_ofChars?` — what is written is read back, and
  nothing else is read.
* `Numeral.written_toChars` — the spelling of a numeral writes it.
* `Numeral.Written.mem` — the characters that numbers are made of.
-/

namespace ServiceHealth.Number

/-! ### Digits -/

/-- A digit is read back from its character. -/
theorem digit?_char (d : Digit) : digit? d.char = some d := by
  revert d
  decide

/-- The character of a digit is a digit. -/
theorem isDigit_char (d : Digit) : d.char.isDigit = true := by
  revert d
  decide

/-- Digits are read back from their characters. -/
theorem mapM_digit?_char (ds : List Digit) : (ds.map Digit.char).mapM digit? = some ds := by
  induction ds with
  | nil => rfl
  | cons d ds ih => simp [digit?_char, ih]

/-- The character that is read as a digit is that of the digit. -/
theorem char_of_digit? {c : Char} {d : Digit} (h : digit? c = some d) : d.char = c := by
  have hchar : ∀ d : Digit, d.char.toNat = 48 + d := by decide
  rw [digit?, Option.dite_none_right_eq_some] at h
  obtain ⟨⟨hlt, hle⟩, hd⟩ := h
  obtain rfl := Option.some.inj hd
  rw [← Char.toNat_inj, hchar]
  exact Nat.add_sub_cancel' hle

/-- Characters that are read as digits are those of the digits. -/
theorem map_char_of_mapM_digit? {cs : List Char} {ds : List Digit} (h : cs.mapM digit? = some ds) :
    ds.map Digit.char = cs := by
  induction cs generalizing ds with
  | nil =>
    obtain rfl : [] = ds := by simpa using h
    rfl
  | cons c cs ih =>
    simp only [List.mapM_cons, Option.bind_eq_bind, Option.bind_eq_some_iff, Option.pure_def,
      Option.some.injEq] at h
    obtain ⟨d, hd, ds, hds, rfl⟩ := h
    rw [List.map_cons, char_of_digit? hd, ih hds]

/-- Characters that are digits are those of some digits. -/
theorem exists_map_char {cs : List Char} (h : ∀ c ∈ cs, c.isDigit = true) :
    ∃ ds : List Digit, ds.map Digit.char = cs := by
  induction cs with
  | nil => exact ⟨[], rfl⟩
  | cons c cs ih =>
    obtain ⟨hc, hrest⟩ := List.forall_mem_cons.mp h
    obtain ⟨ds, rfl⟩ := ih hrest
    have hrange : c.toNat - 48 < 10 ∧ 48 ≤ c.toNat := by
      simp only [Char.isDigit, ge_iff_le, Bool.and_eq_true, decide_eq_true_eq,
        UInt32.le_iff_toNat_le] at hc
      have hlow : 48 ≤ c.toNat := hc.1
      have hhigh : c.toNat ≤ 57 := hc.2
      omega
    have hd : digit? c = some ⟨c.toNat - 48, hrange.1⟩ := dif_pos hrange
    exact ⟨⟨c.toNat - 48, hrange.1⟩ :: ds, by rw [List.map_cons, char_of_digit? hd]⟩

/-- The characters of digits denote the number that the digits denote. -/
theorem ofDigitChars_map_char (ds : List Digit) (n : Nat) :
    Nat.ofDigitChars 10 (ds.map Digit.char) n =
      ds.foldl (fun (n : Nat) (d : Digit) => n * 10 + d) n := by
  induction ds generalizing n with
  | nil => simp
  | cons d ds ih =>
    rw [List.map_cons, Digit.char, Nat.ofDigitChars_cons_digitChar_of_lt_ten d.isLt, ih,
      Nat.mul_comm, List.foldl_cons]

/-- Digits end where none follows. -/
theorem takeWhile_isDigit_append (ds : List Digit) {rest : List Char}
    (h : rest.takeWhile Char.isDigit = []) :
    (ds.map Digit.char ++ rest).takeWhile Char.isDigit = ds.map Digit.char := by
  rw [List.takeWhile_append_of_pos, h, List.append_nil]
  intro c hc
  obtain ⟨d, -, rfl⟩ := List.mem_map.mp hc
  exact isDigit_char d

/-- Behind digits is what follows them. -/
theorem dropWhile_isDigit_append (ds : List Digit) {rest : List Char}
    (h : rest.takeWhile Char.isDigit = []) :
    (ds.map Digit.char ++ rest).dropWhile Char.isDigit = rest := by
  have hsplit := List.takeWhile_append_dropWhile (p := Char.isDigit)
    (l := ds.map Digit.char ++ rest)
  rw [takeWhile_isDigit_append ds h] at hsplit
  exact List.append_cancel_left hsplit

/-- The digits of a number are those of its decimal notation. -/
theorem map_char_digits (n : Nat) :
    ((digits n).1 :: (digits n).2).map Digit.char = Nat.toDigits 10 n := by
  induction n using digits.induct with
  | case1 n h =>
    rw [digits, if_pos h, Nat.toDigits_of_lt_base h]
    simp [lastDigit, Digit.char, Nat.mod_eq_of_lt h]
  | case2 n h ih =>
    rw [digits, if_neg h, Nat.toDigits_of_base_le (by decide) (Nat.le_of_not_lt h), ← ih]
    simp [lastDigit, Digit.char]

/-- The first digit of a positive number is not zero. -/
theorem digits_fst_ne_zero {n : Nat} (h : n ≠ 0) : (digits n).1 ≠ 0 := by
  induction n using digits.induct with
  | case1 n hlt =>
    rw [digits, if_pos hlt]
    intro hzero
    have := congrArg Fin.val hzero
    simp only [lastDigit, Fin.val_zero] at this
    omega
  | case2 n hle ih =>
    rw [digits, if_neg hle]
    exact ih (by omega)

end ServiceHealth.Number

namespace ServiceHealth.Json.Numeral

open Number

/-! ### Reading -/

/-- The digits of an exponent are read. -/
theorem ofDigits?_map_char (capital : Bool) (sign : Option Bool) (d : Digit) (ds : List Digit) :
    Exponent.ofDigits? capital sign ((d :: ds).map Digit.char) = some ⟨capital, sign, d, ds⟩ := by
  rw [Exponent.ofDigits?, mapM_digit?_char]

/-- The sign and the digits behind the letter of an exponent are read. -/
theorem SignPart.afterLetter?_eq {sign : Option Bool} {signs : List Char} (h : SignPart sign signs)
    (capital : Bool) (d : Digit) (ds : List Digit) :
    Exponent.afterLetter? capital (signs ++ (d :: ds).map Digit.char) =
      some ⟨capital, sign, d, ds⟩ := by
  cases h with
  | absent =>
    rw [List.nil_append, ← ofDigits?_map_char]
    have hminus : d.char ≠ '-' := by revert d; decide
    have hplus : d.char ≠ '+' := by revert d; decide
    exact Exponent.afterLetter?.eq_3 _ _ (fun _ h => hminus (List.cons.inj h).1)
      fun _ h => hplus (List.cons.inj h).1
  | minus => exact ofDigits?_map_char ..
  | plus => exact ofDigits?_map_char ..

/-- An exponent is read. -/
theorem ExponentPart.exponentOf?_eq {e : Option Exponent} {es : List Char}
    (h : ExponentPart e es) : exponentOf? es = some e := by
  cases h with
  | absent => rfl
  | small hsign => rw [List.cons_append, exponentOf?, hsign.afterLetter?_eq, Option.map_some]
  | capital hsign => rw [List.cons_append, exponentOf?, hsign.afterLetter?_eq, Option.map_some]

/-- An exponent does not begin with a digit. -/
theorem ExponentPart.takeWhile_eq {e : Option Exponent} {es : List Char}
    (h : ExponentPart e es) : es.takeWhile Char.isDigit = [] := by
  cases h <;> rfl

/-- What follows the whole part is read. -/
theorem FractionPart.fractionOf?_eq {fraction : List Digit} {e : Option Exponent}
    {fs es : List Char} (hf : FractionPart fraction fs) (he : ExponentPart e es) :
    fractionOf? (fs ++ es) = some (fraction, e) := by
  cases hf with
  | absent =>
    have hdot : ∀ cs, es ≠ '.' :: cs := by
      intro cs
      cases he <;> simp
    rw [List.nil_append, fractionOf?.eq_2 es hdot, he.exponentOf?_eq]
    rfl
  | @present d ds =>
    rw [List.cons_append, fractionOf?, takeWhile_isDigit_append _ he.takeWhile_eq,
      dropWhile_isDigit_append _ he.takeWhile_eq, mapM_digit?_char, he.exponentOf?_eq]
    simp [guard]

/-- What follows the whole part does not begin with a digit. -/
theorem FractionPart.takeWhile_eq {fraction : List Digit} {e : Option Exponent}
    {fs es : List Char} (hf : FractionPart fraction fs) (he : ExponentPart e es) :
    (fs ++ es).takeWhile Char.isDigit = [] := by
  cases hf with
  | absent => exact he.takeWhile_eq
  | present => rfl

/-- The digits of a whole part: at least one, the first zero for zero alone. -/
theorem WholePart.digits {whole : Nat} {ws : List Char} (h : WholePart whole ws) :
    ∃ ds : List Digit, ws = ds.map Digit.char ∧ valueOf ds = whole ∧ ws ≠ [] ∧
      (ws.head? = some '0' → ws = ['0']) := by
  cases h with
  | zero => exact ⟨[0], rfl, rfl, by simp, fun _ => rfl⟩
  | @positive d ds hd =>
    refine ⟨d :: ds, rfl, rfl, by simp, fun hzero => absurd ?_ hd⟩
    have hchar : d.char = '0' := by simpa using hzero
    have hread := digit?_char d
    rw [hchar] at hread
    exact (Option.some.inj hread).symm

/-- The parts of a number without its sign are read. -/
theorem unsigned?_eq (negative : Bool) {whole : Nat} {fraction : List Digit}
    {e : Option Exponent} {ws fs es : List Char} (hw : WholePart whole ws)
    (hf : FractionPart fraction fs) (he : ExponentPart e es) :
    unsigned? negative (ws ++ fs ++ es) = some ⟨negative, whole, fraction, e⟩ := by
  obtain ⟨ds, rfl, rfl, hne, hzero⟩ := hw.digits
  have hrest := hf.takeWhile_eq he
  rw [unsigned?, List.append_assoc, takeWhile_isDigit_append _ hrest,
    dropWhile_isDigit_append _ hrest, hf.fractionOf?_eq he, ofDigitChars_map_char]
  simp only [guard, if_pos (And.intro hne hzero)]
  rfl

/-- A whole part does not begin with a sign. -/
theorem WholePart.ne_minus {whole : Nat} {ws : List Char} (h : WholePart whole ws)
    (rest cs : List Char) : ws ++ rest ≠ '-' :: cs := by
  cases h with
  | zero => simp
  | @positive d ds hd =>
    have hminus : d.char ≠ '-' := by revert d; decide
    exact fun heq => hminus (List.cons.inj heq).1

/-- The characters of a number are read as the numeral that they write. -/
theorem Written.ofChars?_eq {n : Numeral} {cs : List Char} (h : Written n cs) :
    ofChars? cs = some n := by
  cases h with
  | positive hw hf he =>
    rw [List.append_assoc]
    rw [ofChars?.eq_2 _ fun cs heq => hw.ne_minus _ cs heq, ← List.append_assoc]
    exact unsigned?_eq false hw hf he
  | negative hw hf he => exact unsigned?_eq true hw hf he

/-! ### What is read -/

/-- Digits that are read behind the letter of an exponent and its sign. -/
theorem exponentPart_of_ofDigits? {capital : Bool} {sign : Option Bool} {signs cs : List Char}
    {e : Exponent} (hsign : SignPart sign signs)
    (h : Exponent.ofDigits? capital sign cs = some e) :
    ExponentPart (some e) ((if capital then 'E' else 'e') :: signs ++ cs) := by
  rw [Exponent.ofDigits?] at h
  split at h
  next d ds hread =>
    obtain rfl := Option.some.inj h
    rw [← map_char_of_mapM_digit? hread]
    cases capital with
    | false => exact .small hsign
    | true => exact .capital hsign
  next => cases h

/-- What is read behind the letter of an exponent. -/
theorem exponentPart_of_afterLetter? {capital : Bool} {cs : List Char} {e : Exponent}
    (h : Exponent.afterLetter? capital cs = some e) :
    ExponentPart (some e) ((if capital then 'E' else 'e') :: cs) := by
  unfold Exponent.afterLetter? at h
  split at h
  · exact exponentPart_of_ofDigits? .minus h
  · exact exponentPart_of_ofDigits? .plus h
  · exact exponentPart_of_ofDigits? .absent h

/-- What is read as an exponent is one. -/
theorem exponentPart_of_exponentOf? {cs : List Char} {e : Option Exponent}
    (h : exponentOf? cs = some e) : ExponentPart e cs := by
  unfold exponentOf? at h
  split at h
  · obtain rfl := Option.some.inj h
    exact .absent
  · obtain ⟨e, he, rfl⟩ := Option.map_eq_some_iff.mp h
    exact exponentPart_of_afterLetter? he
  · obtain ⟨e, he, rfl⟩ := Option.map_eq_some_iff.mp h
    exact exponentPart_of_afterLetter? he
  · cases h

/-- What is read behind the whole part is a fraction and an exponent. -/
theorem parts_of_fractionOf? {cs : List Char} {fraction : List Digit} {e : Option Exponent}
    (h : fractionOf? cs = some (fraction, e)) :
    ∃ fs es, cs = fs ++ es ∧ FractionPart fraction fs ∧ ExponentPart e es := by
  unfold fractionOf? at h
  split at h
  next cs =>
    simp only [Option.bind_eq_bind, Option.bind_eq_some_iff, Option.pure_def, Option.some.injEq,
      Prod.mk.injEq, Option.guard_eq_some'] at h
    obtain ⟨places, hplaces, -, hne, _, hexponent, rfl, rfl⟩ := h
    obtain ⟨d, ds, rfl⟩ := List.exists_cons_of_ne_nil hne
    refine ⟨_, _, ?_, @FractionPart.present d ds, exponentPart_of_exponentOf? hexponent⟩
    rw [map_char_of_mapM_digit? hplaces, List.cons_append, List.takeWhile_append_dropWhile]
  next =>
    simp only [Option.bind_eq_bind, Option.bind_eq_some_iff, Option.pure_def, Option.some.injEq,
      Prod.mk.injEq] at h
    obtain ⟨_, hexponent, rfl, rfl⟩ := h
    exact ⟨[], cs, rfl, .absent, exponentPart_of_exponentOf? hexponent⟩

/-- Digits that do not begin with zero, unless they are zero alone, are a whole part. -/
theorem wholePart_of_digits {ds : List Digit} (hne : ds ≠ [])
    (hzero : (ds.map Digit.char).head? = some '0' → ds.map Digit.char = ['0']) :
    WholePart (valueOf ds) (ds.map Digit.char) := by
  obtain ⟨d, ds, rfl⟩ := List.exists_cons_of_ne_nil hne
  by_cases hd : d = 0
  · subst hd
    obtain rfl : ds = [] := by simpa using (List.cons.inj (hzero rfl)).2
    exact .zero
  · exact .positive hd

/-- What is read behind the sign of a number has its three parts. -/
theorem parts_of_unsigned? {negative : Bool} {cs : List Char} {n : Numeral}
    (h : unsigned? negative cs = some n) :
    n.negative = negative ∧ ∃ ws fs es, cs = ws ++ fs ++ es ∧ WholePart n.whole ws ∧
      FractionPart n.fraction fs ∧ ExponentPart n.exponent es := by
  simp only [unsigned?, Option.bind_eq_bind, Option.bind_eq_some_iff, Option.pure_def,
    Option.some.injEq, Option.guard_eq_some'] at h
  obtain ⟨-, ⟨hne, hzero⟩, ⟨places, e⟩, hrest, rfl⟩ := h
  obtain ⟨fs, es, hsplit, hfraction, hexponent⟩ := parts_of_fractionOf? hrest
  have hdigits : ∀ c ∈ cs.takeWhile Char.isDigit, c.isDigit = true := fun c hc =>
    List.mem_takeWhile_imp hc
  obtain ⟨ds, hds⟩ := exists_map_char hdigits
  rw [← hds] at hne hzero ⊢
  refine ⟨rfl, ds.map Digit.char, fs, es, ?_, ?_, hfraction, hexponent⟩
  · rw [List.append_assoc, ← hsplit, hds, List.takeWhile_append_dropWhile]
  · rw [ofDigitChars_map_char]
    exact wholePart_of_digits (by simpa using hne) hzero

/-- What is read as a numeral writes it. -/
theorem written_of_ofChars? {n : Numeral} {cs : List Char} (h : ofChars? cs = some n) :
    Written n cs := by
  unfold ofChars? at h
  split at h
  all_goals
    obtain ⟨hsign, ws, fs, es, rfl, hwhole, hfraction, hexponent⟩ := parts_of_unsigned? h
    obtain ⟨negative, whole, fraction, exponent⟩ := n
    obtain rfl : negative = _ := hsign
  · exact .negative hwhole hfraction hexponent
  · exact .positive hwhole hfraction hexponent

/-! ### Writing -/

/-- The decimal notation of a number is a whole part. -/
theorem wholePart_toDigits (n : Nat) : WholePart n (Nat.toDigits 10 n) := by
  by_cases h : n = 0
  · subst h
    rw [Nat.toDigits_zero]
    exact .zero
  · have hpart := @WholePart.positive _ (Number.digits n).2 (digits_fst_ne_zero h)
    rwa [valueOf_digits, map_char_digits] at hpart

/-- The places after the point are a fraction part. -/
theorem fractionPart_places (fraction : List Digit) :
    FractionPart fraction (if fraction = [] then [] else '.' :: fraction.map Digit.char) := by
  cases fraction with
  | nil => exact .absent
  | cons d ds => exact .present

/-- The spelling of an exponent is an exponent part. -/
theorem exponentPart_toChars (e : Option Exponent) :
    ExponentPart e ((e.map Exponent.toChars).getD []) := by
  rcases e with - | ⟨capital, sign, d, ds⟩
  · exact .absent
  · rcases capital with - | - <;> rcases sign with - | - | -
    · exact .small .absent
    · exact .small .plus
    · exact .small .minus
    · exact .capital .absent
    · exact .capital .plus
    · exact .capital .minus

/-- The spelling of a numeral writes it. -/
theorem written_toChars (n : Numeral) : Written n n.toChars := by
  obtain ⟨negative, whole, fraction, e⟩ := n
  cases negative with
  | false =>
    exact .positive (wholePart_toDigits whole) (fractionPart_places fraction)
      (exponentPart_toChars e)
  | true =>
    exact .negative (wholePart_toDigits whole) (fractionPart_places fraction)
      (exponentPart_toChars e)

/-! ### Characters -/

/-- A character that numbers are made of. -/
def IsNumeralChar (c : Char) : Prop := c.isDigit = true ∨ c ∈ ['-', '+', '.', 'e', 'E']

/-- The characters of digits are characters of numbers. -/
theorem isNumeralChar_map_char {ds : List Digit} {c : Char} (h : c ∈ ds.map Digit.char) :
    IsNumeralChar c := by
  obtain ⟨d, -, rfl⟩ := List.mem_map.mp h
  exact .inl (isDigit_char d)

/-- The characters of a sign are characters of numbers. -/
theorem SignPart.mem {sign : Option Bool} {signs : List Char} (h : SignPart sign signs) {c : Char}
    (hc : c ∈ signs) : IsNumeralChar c := by
  cases h with
  | absent => cases hc
  | minus => exact .inr (by simp_all)
  | plus => exact .inr (by simp_all)

/-- The characters of an exponent are characters of numbers. -/
theorem ExponentPart.mem {e : Option Exponent} {es : List Char} (h : ExponentPart e es) {c : Char}
    (hc : c ∈ es) : IsNumeralChar c := by
  have hparts {letter sign signs} {ds : List Digit} (hletter : IsNumeralChar letter)
      (hsign : SignPart sign signs) (hmem : c ∈ letter :: signs ++ ds.map Digit.char) :
      IsNumeralChar c := by
    rcases List.mem_append.mp hmem with hfront | hdigits
    · rcases List.mem_cons.mp hfront with rfl | hsigns
      · exact hletter
      · exact hsign.mem hsigns
    · exact isNumeralChar_map_char hdigits
  cases h with
  | absent => cases hc
  | small hsign => exact hparts (.inr (by decide)) hsign hc
  | capital hsign => exact hparts (.inr (by decide)) hsign hc

/-- The characters of a fraction are characters of numbers. -/
theorem FractionPart.mem {fraction : List Digit} {fs : List Char} (h : FractionPart fraction fs)
    {c : Char} (hc : c ∈ fs) : IsNumeralChar c := by
  cases h with
  | absent => cases hc
  | present =>
    rcases List.mem_cons.mp hc with rfl | hmem
    · exact .inr (by decide)
    · exact isNumeralChar_map_char hmem

/-- The characters of a number are characters of numbers, and there are some. -/
theorem Written.mem {n : Numeral} {cs : List Char} (h : Written n cs) :
    cs ≠ [] ∧ ∀ c ∈ cs, IsNumeralChar c := by
  have hparts {whole fraction e} {ws fs es : List Char} (hw : WholePart whole ws)
      (hf : FractionPart fraction fs) (he : ExponentPart e es) :
      ws ++ fs ++ es ≠ [] ∧ ∀ c ∈ ws ++ fs ++ es, IsNumeralChar c := by
    obtain ⟨ds, rfl, -, hne, -⟩ := hw.digits
    refine ⟨by simp_all, fun c hc => ?_⟩
    rcases List.mem_append.mp hc with hmem | hmem
    · rcases List.mem_append.mp hmem with hmem | hmem
      · exact isNumeralChar_map_char hmem
      · exact hf.mem hmem
    · exact he.mem hmem
  cases h with
  | positive hw hf he => exact hparts hw hf he
  | negative hw hf he =>
    refine ⟨List.cons_ne_nil _ _, fun c hc => ?_⟩
    rcases List.mem_cons.mp hc with rfl | hmem
    · exact .inr (by decide)
    · exact (hparts hw hf he).2 c hmem

end ServiceHealth.Json.Numeral
