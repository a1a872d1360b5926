import ServiceHealth.Proofs.Json.Numeral
import ServiceHealth.Proofs.Json.Range

/-!
# Decimals written out

A decimal with all its places written out is a numeral without a sign and an exponent. Its text
shows the number that it denotes, since numerals have one spelling each, and the number has one
numeral of this kind that does not end with a zero behind the point.

## Main definitions

* `Decimal.numeral` — the numeral that a decimal is written out as.
* `Numeral.IsPlainFor` — the plain numeral of a number, with no place too many.

## Main results

* `Decimal.magnitude_numeral` — writing a decimal out does not change its number.
* `Decimal.value_eq_of_positional_eq` — the text of a decimal shows its number.
* `Numeral.IsPlainFor.unique` — a number has one plain numeral.
-/

namespace ServiceHealth

open Number

/-! ### Digits behind a number -/

namespace Number

/-- The last digits of a number behind another number. -/
theorem extended_fixedDigits (n width m : Nat) :
    extended n (fixedDigits width m) = n * 10 ^ width + m % 10 ^ width := by
  induction width generalizing m with
  | zero => simp [fixedDigits, extended, Nat.mod_one]
  | succ width ih =>
    rw [fixedDigits, extended_append, ih]
    have hsplit := Nat.mod_mul (x := m) (a := 10) (b := 10 ^ width)
    rw [Nat.pow_succ', hsplit]
    simp only [extended, List.foldl_cons, List.foldl_nil, lastDigit]
    ring

/-- As many digits behind a number show which ones they are, and the number. -/
theorem extended_inj {n n' : Nat} {ds ds' : List Digit} (hlength : ds.length = ds'.length)
    (h : extended n ds = extended n' ds') : n = n' ∧ ds = ds' := by
  induction ds using List.reverseRecOn generalizing ds' with
  | nil =>
    obtain rfl : ds' = [] := List.length_eq_zero_iff.mp hlength.symm
    exact ⟨h, rfl⟩
  | append_singleton ds d ih =>
    rcases List.eq_nil_or_concat ds' with rfl | ⟨es, e, rfl⟩
    · simp at hlength
    · rw [List.concat_eq_append] at *
      rw [extended_append, extended_append] at h
      simp only [extended, List.foldl_cons, List.foldl_nil] at h
      have hd := d.isLt
      have he := e.isLt
      obtain ⟨hn, hds⟩ := ih (by simpa using hlength)
        (show extended n ds = extended n' es by simp only [extended]; omega)
      have hde : d = e := Fin.ext (by omega)
      exact ⟨hn, by rw [hds, hde]⟩

end Number

/-! ### Plain numerals -/

namespace Json.Numeral

/-- Numerals are told apart by their spellings. -/
theorem toChars_injective : Function.Injective toChars := by
  intro n n' h
  have hread := (written_toChars n).ofChars?_eq
  rw [h, (written_toChars n').ofChars?_eq] at hread
  exact (Option.some.inj hread).symm

/-- A numeral denotes a number without a sign and an exponent, and without a zero at the end of its
places: it is the shortest one that denotes the number exactly. -/
structure IsPlainFor (n : Numeral) (q : ℚ) : Prop where
  negative : n.negative = false
  exponent : n.exponent = none
  last : ∀ d ∈ n.fraction.getLast?, d ≠ 0
  magnitude : n.magnitude = q

/-- The number that a numeral without an exponent denotes, in units of its last place. -/
theorem IsPlainFor.extended_eq {n : Numeral} {q : ℚ} (h : n.IsPlainFor q) :
    (extended n.whole n.fraction : ℚ) = q * 10 ^ n.fraction.length := by
  have hmagnitude := h.magnitude
  rw [Numeral.magnitude, power, h.exponent] at hmagnitude
  rw [← hmagnitude, Option.map_none, Option.getD_none, zero_sub, zpow_neg, zpow_natCast,
    inv_mul_cancel_right₀ (by positivity)]

/-- A number has no plain numerals with different numbers of places: the longer one would end with a
zero. -/
theorem IsPlainFor.length_le {n n' : Numeral} {q : ℚ} (h : n.IsPlainFor q) (h' : n'.IsPlainFor q) :
    n'.fraction.length ≤ n.fraction.length := by
  by_contra hlt
  obtain ⟨j, hj⟩ := Nat.exists_eq_add_of_lt (not_le.mp hlt)
  obtain ⟨ds, d, hlast⟩ := List.eq_nil_or_concat n'.fraction |>.resolve_left fun hnil => by
    rw [hnil] at hlt
    exact hlt (Nat.zero_le _)
  rw [List.concat_eq_append] at hlast
  have hunits : (extended n'.whole n'.fraction : ℚ) =
      (extended n.whole n.fraction * 10 ^ (j + 1) : Nat) := by
    rw [h'.extended_eq, hj, Nat.cast_mul, h.extended_eq, Nat.cast_pow, Nat.cast_ofNat, mul_assoc,
      ← pow_add, Nat.add_assoc]
  have hten : extended n'.whole n'.fraction % 10 = 0 := by
    rw [Nat.cast_inj.mp hunits, Nat.pow_succ, ← Nat.mul_assoc, Nat.mul_mod_left]
  rw [hlast, extended_append] at hten
  simp only [extended, List.foldl_cons, List.foldl_nil] at hten
  have hd := d.isLt
  refine h'.last d (by rw [hlast, List.getLast?_append]; rfl) (Fin.ext ?_)
  rw [Fin.val_zero]
  omega

/-- A number has one plain numeral. -/
theorem IsPlainFor.unique {n n' : Numeral} {q : ℚ} (h : n.IsPlainFor q) (h' : n'.IsPlainFor q) :
    n = n' := by
  have hlength := Nat.le_antisymm (h'.length_le h) (h.length_le h')
  have hunits : extended n.whole n.fraction = extended n'.whole n'.fraction := by
    have hq := h.extended_eq
    rw [hlength, ← h'.extended_eq] at hq
    exact_mod_cast hq
  obtain ⟨hwhole, hfraction⟩ := extended_inj hlength hunits
  obtain ⟨negative, whole, fraction, exponent⟩ := n
  obtain ⟨negative', whole', fraction', exponent'⟩ := n'
  simp only [Numeral.mk.injEq]
  exact ⟨h.negative.trans h'.negative.symm, hwhole, hfraction, h.exponent.trans h'.exponent.symm⟩

end Json.Numeral

/-! ### Decimals -/

namespace Number.Decimal

open Json

/-- The numeral that a decimal is written out as. -/
def numeral (d : Decimal) : Numeral := ⟨false, d.whole, d.places, none⟩

/-- Writing a decimal out gives the spelling of its numeral. -/
theorem positional_eq (d : Decimal) : d.positional = String.ofList d.numeral.toChars := by
  by_cases hplaces : d.places = [] <;> simp [positional, numeral, Numeral.toChars, hplaces]

/-- Writing a decimal out does not change its number. -/
theorem magnitude_numeral (d : Decimal) : d.numeral.magnitude = d.value := by
  obtain ⟨c, e⟩ := d
  rw [Numeral.magnitude, Numeral.power, value]
  simp only [numeral, whole, places, Option.map_none, Option.getD_none, length_fixedDigits,
    extended_fixedDigits, zero_sub]
  rcases le_total 0 e with he | he
  · obtain ⟨k, rfl⟩ := Int.eq_ofNat_of_zero_le he
    simp [wholePower, Nat.mod_one]
  · obtain ⟨k, hk⟩ := Int.eq_ofNat_of_zero_le (Int.neg_nonneg_of_nonpos he)
    obtain rfl : e = -k := by omega
    simp [wholePower, Nat.div_add_mod']

/-- The text of a decimal shows its number. -/
theorem value_eq_of_positional_eq {d d' : Decimal} (h : d.positional = d'.positional) :
    d.value = d'.value := by
  rw [positional_eq, positional_eq, String.ofList_inj] at h
  rw [← magnitude_numeral, ← magnitude_numeral, Numeral.toChars_injective h]

/-- A decimal without a zero at its end, or without places, is written out as a plain numeral. -/
theorem isPlainFor_numeral {d : Decimal} (h : d.digits % 10 ≠ 0 ∨ 0 ≤ d.exponent) :
    d.numeral.IsPlainFor d.value where
  negative := rfl
  exponent := rfl
  magnitude := d.magnitude_numeral
  last := by
    intro l hl
    rw [numeral, places] at hl
    cases hwidth : (-d.exponent).toNat with
    | zero =>
      rw [hwidth] at hl
      simp [fixedDigits] at hl
    | succ width =>
      rw [hwidth, fixedDigits, List.getLast?_append] at hl
      obtain rfl : lastDigit d.digits = l := by simpa using hl
      intro hzero
      have := congrArg Fin.val hzero
      simp only [lastDigit, Fin.val_zero] at this
      omega

end Number.Decimal

end ServiceHealth
