import Mathlib.Algebra.Order.Field.Power
import Mathlib.Tactic.FieldSimp
import Mathlib.Tactic.Linarith
import Mathlib.Tactic.NormNum
import Mathlib.Tactic.Positivity
import Mathlib.Tactic.Ring
import ServiceHealth.Number.Binary64

/-!
# Rounding to doubles

A double stands for a rational number, and the arithmetic rounds the exact result once. Rounding
keeps a quotient within every interval between powers of two that holds it, which bounds the
results of a computation step by step and shows that they stay within the range of the format.

## Main definitions

* `Binary64.value` — the rational number that a double stands for.
* `Binary64.greatest` — the greatest double of the format.

## Main results

* `Binary64.exponentOf_bounds` — the exponent for which a quotient has a mantissa of 53 bits.
* `Binary64.nearest_le_pow`, `Binary64.pow_le_nearest` — rounding does not cross powers of two.
* `Binary64.value_nearest_error` — how far rounding moves a quotient.
* `Binary64.isFinite_nearest`, `Binary64.isFinite_nearest_eq_false` — rounding what is in range does
  not overflow, and rounding what is beyond it does.
-/

namespace ServiceHealth.Number

/-! ### Powers and quotients -/

/-- A power is the quotient of its numerator and its denominator. -/
theorem wholePower_div (base : Nat) (e : Int) :
    (wholePower base e : ℚ) / wholePower base (-e) = (base : ℚ) ^ e := by
  cases e with
  | ofNat n => simp [wholePower]
  | negSucc n => simp [wholePower, zpow_negSucc]

/-- The numerator of a power is positive. -/
theorem wholePower_pos {base : Nat} (hbase : base ≠ 0) (e : Int) : 0 < wholePower base e :=
  Nat.pow_pos (Nat.pos_of_ne_zero hbase)

/-- A quotient scaled by a power. -/
theorem scaled_div (num den : Nat) {base : Nat} (hbase : base ≠ 0) (e : Int) :
    ((num * wholePower base (-e) : Nat) : ℚ) / (den * wholePower base e : Nat) =
      num / den / (base : ℚ) ^ e := by
  have hneg := (wholePower_pos hbase (-e)).ne'
  have hpos := (wholePower_pos hbase e).ne'
  rw [← wholePower_div base e]
  push_cast
  field_simp

/-- Rounding a quotient does not exceed a natural number that the quotient does not exceed. -/
theorem roundQuotient_le {num den k : Nat} (h : num ≤ k * den) : roundQuotient num den ≤ k := by
  rcases Nat.eq_zero_or_pos den with rfl | hden
  · obtain rfl : num = 0 := by simpa using h
    simp [roundQuotient]
  · have hdiv : num / den ≤ k := Nat.div_le_of_le_mul (by rwa [Nat.mul_comm])
    have hmod := Nat.div_add_mod num den
    -- On the boundary the quotient is exact, so that nothing is rounded up.
    have hexact : num / den = k → num % den = 0 := by
      rintro rfl
      rw [Nat.mul_comm] at h
      omega
    simp only [roundQuotient]
    split_ifs <;> omega

/-- Rounding a quotient does not fall below a natural number that the quotient does not fall
below. -/
theorem le_roundQuotient {num den k : Nat} (hden : 0 < den) (h : k * den ≤ num) :
    k ≤ roundQuotient num den := by
  have hdiv : k ≤ num / den := (Nat.le_div_iff_mul_le hden).mpr h
  simp only [roundQuotient]
  split_ifs <;> omega

/-- Rounding a quotient moves it by one half at most. -/
theorem roundQuotient_error (num : Nat) {den : Nat} (hden : 0 < den) :
    2 * num ≤ (2 * roundQuotient num den + 1) * den ∧
      2 * roundQuotient num den * den ≤ 2 * num + den := by
  have hdiv := Nat.div_add_mod' num den
  have hmod := Nat.mod_lt num hden
  have hnonneg := Nat.zero_le (num % den)
  simp only [roundQuotient]
  split_ifs <;> constructor <;> nlinarith

/-- A quotient and the natural numbers above it. -/
theorem div_le_natCast_iff {num den k : Nat} (hden : den ≠ 0) :
    (num : ℚ) / den ≤ k ↔ num ≤ k * den := by
  rw [div_le_iff₀ (by positivity)]
  exact_mod_cast Iff.rfl

/-- A quotient and the natural numbers below it. -/
theorem natCast_le_div_iff {num den k : Nat} (hden : den ≠ 0) :
    (k : ℚ) ≤ num / den ↔ k * den ≤ num := by
  rw [le_div_iff₀ (by positivity)]
  exact_mod_cast Iff.rfl

/-- A power of two is a whole number of smaller powers of two. -/
theorem pow_eq_natCast_mul {e k : Int} (h : e ≤ k) : ∃ n : Nat, (2 : ℚ) ^ k = n * 2 ^ e := by
  obtain ⟨n, hn⟩ := Int.le.dest h
  refine ⟨2 ^ n, ?_⟩
  rw [← hn, zpow_add₀ (by norm_num), mul_comm]
  norm_num

/-- A quotient lies between the powers of two that the lengths of its parts give. -/
theorem div_log2_bounds {num den : Nat} (hnum : num ≠ 0) (hden : den ≠ 0) :
    (2 : ℚ) ^ ((num.log2 : Int) - den.log2 - 1) ≤ num / den ∧
      (num : ℚ) / den < 2 ^ ((num.log2 : Int) - den.log2 + 1) := by
  have hnumLow : (2 : ℚ) ^ num.log2 ≤ num := mod_cast Nat.log2_self_le hnum
  have hnumHigh : (num : ℚ) < 2 ^ (num.log2 + 1) := mod_cast Nat.lt_log2_self
  have hdenLow : (2 : ℚ) ^ den.log2 ≤ den := mod_cast Nat.log2_self_le hden
  have hdenHigh : (den : ℚ) < 2 ^ (den.log2 + 1) := mod_cast Nat.lt_log2_self
  have hpos : (0 : ℚ) < den := by positivity
  constructor
  · rw [le_div_iff₀ hpos]
    calc (2 : ℚ) ^ ((num.log2 : Int) - den.log2 - 1) * den
        ≤ 2 ^ ((num.log2 : Int) - den.log2 - 1) * 2 ^ (den.log2 + 1) := by gcongr
      _ = 2 ^ num.log2 := by
        rw [← zpow_natCast, ← zpow_natCast, ← zpow_add₀ (by norm_num)]
        congr 1
        push_cast
        ring
      _ ≤ num := hnumLow
  · rw [div_lt_iff₀ hpos]
    calc (num : ℚ) < 2 ^ (num.log2 + 1) := hnumHigh
      _ = 2 ^ ((num.log2 : Int) - den.log2 + 1) * 2 ^ den.log2 := by
        rw [← zpow_natCast, ← zpow_natCast, ← zpow_add₀ (by norm_num)]
        congr 1
        push_cast
        ring
      _ ≤ 2 ^ ((num.log2 : Int) - den.log2 + 1) * den := by gcongr

namespace Binary64

/-- The rational number that a double stands for. -/
def value (x : Binary64) : ℚ := x.mantissa * 2 ^ x.exponent

/-- A double stands for the quotient of its numerator and its denominator. -/
theorem num_div_den (x : Binary64) : (x.num : ℚ) / x.den = x.value := by
  have h := wholePower_div 2 x.exponent
  rw [Nat.cast_ofNat] at h
  rw [num, den, value, ← h]
  push_cast
  ring

/-- A double is not negative. -/
theorem value_nonneg (x : Binary64) : 0 ≤ x.value := by
  rw [value]
  positivity

/-- The denominator of a double is positive. -/
theorem den_pos (x : Binary64) : 0 < x.den := wholePower_pos (by norm_num) _

/-- The greatest double of the format. -/
def greatest : ℚ := (2 ^ 53 - 1) * 2 ^ (971 : Int)

/-- The greatest double of the format is below the next power of two. -/
theorem greatest_lt : greatest < 2 ^ (1024 : Int) := by
  calc greatest < 2 ^ (53 : Int) * 2 ^ (971 : Int) := by
        rw [greatest]
        gcongr
        norm_num
    _ = 2 ^ (1024 : Int) := by rw [← zpow_add₀ (by norm_num)]; rfl

/-! ### The nearest double -/

/-- The exponent of a quotient puts it between `2 ^ 52` and `2 ^ 53` units. -/
theorem exponentOf_bounds {num den : Nat} (hnum : num ≠ 0) (hden : den ≠ 0) :
    (2 : ℚ) ^ (exponentOf num den + 52) ≤ num / den ∧
      (num : ℚ) / den < 2 ^ (exponentOf num den + 53) := by
  obtain ⟨hlow, hhigh⟩ := div_log2_bounds hnum hden
  set guess : Int := (num.log2 : Int) - den.log2 - 52 with hguess
  have hcond : num * wholePower 2 (-guess) < den * wholePower 2 guess * leastMantissa ↔
      (num : ℚ) / den < 2 ^ (guess + 52) := by
    have hscaled := scaled_div num den two_ne_zero guess
    have hdenPos : (0 : ℚ) < (den * wholePower 2 guess : Nat) := by
      have := wholePower_pos two_ne_zero guess
      positivity
    rw [zpow_add₀ (by norm_num), ← div_lt_iff₀' (by positivity), ← Nat.cast_ofNat (R := ℚ),
      ← hscaled, div_lt_iff₀ hdenPos]
    rw [mul_comm (den * wholePower 2 guess) leastMantissa, ← Nat.cast_lt (α := ℚ)]
    norm_num [leastMantissa]
  rw [exponentOf]
  simp only [← hguess]
  split
  next h =>
    refine ⟨?_, ?_⟩
    · have hexp : guess - 1 + 52 = (num.log2 : Int) - den.log2 - 1 := by omega
      rwa [hexp]
    · have hexp : guess - 1 + 53 = guess + 52 := by omega
      rw [hexp]
      exact hcond.mp h
  next h =>
    refine ⟨le_of_not_gt fun hlt => h (hcond.mpr hlt), ?_⟩
    have hexp : guess + 53 = (num.log2 : Int) - den.log2 + 1 := by omega
    rwa [hexp]

/-- The mantissa of the nearest double before it is normalized. -/
def roundedMantissa (num den : Nat) : Nat :=
  roundQuotient (num * wholePower 2 (-exponentOf num den)) (den * wholePower 2 (exponentOf num den))

variable {num den : Nat}

/-- Rounding zero, or a quotient by zero, gives zero. -/
theorem nearest_eq_zero (h : num = 0 ∨ den = 0) : nearest num den = zero := if_pos h

/-- Rounding any other quotient gives its mantissa, normalized, and its exponent. -/
theorem nearest_eq (hnum : num ≠ 0) (hden : den ≠ 0) :
    nearest num den = if roundedMantissa num den = 2 * leastMantissa then
      ⟨leastMantissa, exponentOf num den + 1⟩ else ⟨roundedMantissa num den, exponentOf num den⟩ :=
  if_neg (by simp [hnum, hden])

/-- The nearest double stands for its rounded mantissa times its unit. -/
theorem value_nearest (hnum : num ≠ 0) (hden : den ≠ 0) :
    (nearest num den).value = roundedMantissa num den * 2 ^ exponentOf num den := by
  rw [nearest_eq hnum hden]
  split
  next h =>
    rw [h, value, zpow_add₀ (by norm_num)]
    push_cast
    ring
  next => rfl

/-- The quotient in units of its nearest double. -/
theorem div_eq_scaled (num den : Nat) :
    ((num * wholePower 2 (-exponentOf num den) : Nat) : ℚ) /
      (den * wholePower 2 (exponentOf num den) : Nat) = num / den / 2 ^ exponentOf num den := by
  have h := scaled_div num den two_ne_zero (exponentOf num den)
  rwa [Nat.cast_ofNat] at h

/-- A number of units that the quotient does not exceed is not exceeded by the mantissa. -/
theorem roundedMantissa_le (hden : den ≠ 0) {k : Nat}
    (h : (num : ℚ) / den ≤ k * 2 ^ exponentOf num den) : roundedMantissa num den ≤ k := by
  have hscale := wholePower_pos two_ne_zero (exponentOf num den)
  have hden' : den * wholePower 2 (exponentOf num den) ≠ 0 := by positivity
  refine roundQuotient_le ((div_le_natCast_iff hden').mp ?_)
  rwa [div_eq_scaled, div_le_iff₀ (by positivity)]

/-- A number of units that the quotient reaches is reached by the mantissa. -/
theorem le_roundedMantissa (hden : den ≠ 0) {k : Nat}
    (h : k * 2 ^ exponentOf num den ≤ (num : ℚ) / den) : k ≤ roundedMantissa num den := by
  have hscale := wholePower_pos two_ne_zero (exponentOf num den)
  have hden' : den * wholePower 2 (exponentOf num den) ≠ 0 := by positivity
  refine le_roundQuotient (Nat.pos_of_ne_zero hden') ((natCast_le_div_iff hden').mp ?_)
  rwa [div_eq_scaled, le_div_iff₀ (by positivity)]

/-- The mantissa of a quotient differs by one half at most from the quotient in its units. -/
theorem roundedMantissa_error (num : Nat) {den : Nat} (hden : den ≠ 0) :
    (num : ℚ) / den / 2 ^ exponentOf num den ≤ roundedMantissa num den + 1 / 2 ∧
      (roundedMantissa num den : ℚ) ≤ num / den / 2 ^ exponentOf num den + 1 / 2 := by
  set unit := den * wholePower 2 (exponentOf num den) with hunit
  have hscale := wholePower_pos two_ne_zero (exponentOf num den)
  have hpos : 0 < unit := by positivity
  have hcast : (0 : ℚ) < unit := by exact_mod_cast hpos
  obtain ⟨hlow, hhigh⟩ := roundQuotient_error (num * wholePower 2 (-exponentOf num den)) hpos
  rw [← roundedMantissa, ← Nat.cast_le (α := ℚ)] at hlow hhigh
  rw [← div_eq_scaled, ← hunit]
  push_cast at hlow hhigh ⊢
  constructor
  · rw [div_le_iff₀ hcast]
    linarith
  · rw [← sub_le_iff_le_add, le_div_iff₀ hcast]
    linarith

/-- The mantissa of a quotient has 53 bits, or is the least number of 54 bits. -/
theorem roundedMantissa_bounds (hnum : num ≠ 0) (hden : den ≠ 0) :
    leastMantissa ≤ roundedMantissa num den ∧ roundedMantissa num den ≤ 2 * leastMantissa := by
  obtain ⟨hlow, hhigh⟩ := exponentOf_bounds hnum hden
  rw [zpow_add₀ (by norm_num)] at hlow hhigh
  constructor
  · refine le_roundedMantissa hden (le_trans (le_of_eq ?_) hlow)
    norm_num [leastMantissa]
    ring
  · refine roundedMantissa_le hden (le_trans hhigh.le (le_of_eq ?_))
    norm_num [leastMantissa]
    ring

/-- The nearest double is zero or has a mantissa of exactly 53 bits. -/
theorem mantissa_nearest (num den : Nat) :
    (nearest num den).mantissa = 0 ∨
      leastMantissa ≤ (nearest num den).mantissa ∧
        (nearest num den).mantissa < 2 * leastMantissa := by
  by_cases h : num = 0 ∨ den = 0
  · exact .inl (by rw [nearest_eq_zero h]; rfl)
  · rw [not_or] at h
    obtain ⟨hlow, hhigh⟩ := roundedMantissa_bounds h.1 h.2
    rw [nearest_eq h.1 h.2]
    split
    next => exact .inr ⟨Nat.le_refl leastMantissa, by norm_num [leastMantissa]⟩
    next hne => exact .inr ⟨hlow, lt_of_le_of_ne hhigh hne⟩

/-- Rounding does not exceed a power of two that the quotient does not exceed. -/
theorem nearest_le_pow {k : Int} (h : (num : ℚ) / den ≤ 2 ^ k) :
    (nearest num den).value ≤ 2 ^ k := by
  by_cases hzero : num = 0 ∨ den = 0
  · rw [nearest_eq_zero hzero]
    have : (0 : ℚ) ≤ 2 ^ k := by positivity
    simpa [value, zero] using this
  · rw [not_or] at hzero
    obtain ⟨hlow, -⟩ := exponentOf_bounds hzero.1 hzero.2
    have hexp : exponentOf num den + 52 ≤ k :=
      (zpow_le_zpow_iff_right₀ (by norm_num : (1 : ℚ) < 2)).mp (hlow.trans h)
    obtain ⟨n, hn⟩ := pow_eq_natCast_mul (e := exponentOf num den) (k := k) (by omega)
    rw [value_nearest hzero.1 hzero.2, hn]
    rw [hn] at h
    gcongr
    exact roundedMantissa_le hzero.2 h

/-- Rounding does not fall below a power of two that the quotient reaches. -/
theorem pow_le_nearest (hden : den ≠ 0) {k : Int} (h : (2 : ℚ) ^ k ≤ num / den) :
    2 ^ k ≤ (nearest num den).value := by
  have hnum : num ≠ 0 := by
    rintro rfl
    have : (0 : ℚ) < 2 ^ k := by positivity
    rw [Nat.cast_zero, zero_div] at h
    linarith
  rw [value_nearest hnum hden]
  rcases le_or_gt (exponentOf num den) k with hle | hlt
  · obtain ⟨n, hn⟩ := pow_eq_natCast_mul hle
    rw [hn] at h ⊢
    gcongr
    exact le_roundedMantissa hden h
  · have hmantissa : 1 ≤ roundedMantissa num den :=
      le_trans (by norm_num [leastMantissa]) (roundedMantissa_bounds hnum hden).1
    calc (2 : ℚ) ^ k ≤ 2 ^ exponentOf num den := zpow_le_zpow_right₀ (by norm_num) hlt.le
      _ = (1 : Nat) * 2 ^ exponentOf num den := by norm_num
      _ ≤ roundedMantissa num den * 2 ^ exponentOf num den := by gcongr

/-- Rounding moves a quotient by one part in `2 ^ 53` at most. -/
theorem value_nearest_error (num : Nat) {den : Nat} (hden : den ≠ 0) :
    (1 - 1 / 2 ^ 53) * ((num : ℚ) / den) ≤ (nearest num den).value ∧
      (nearest num den).value ≤ (1 + 1 / 2 ^ 53) * (num / den) := by
  by_cases hnum : num = 0
  · rw [nearest_eq_zero (.inl hnum), hnum]
    simp [value, zero]
  · obtain ⟨hlow, hhigh⟩ := roundedMantissa_error num hden
    have hbits := (exponentOf_bounds hnum hden).1
    have hunit : (0 : ℚ) < 2 ^ exponentOf num den := by positivity
    rw [zpow_add₀ (by norm_num), ← le_div_iff₀' hunit] at hbits
    rw [value_nearest hnum hden]
    set units := (num : ℚ) / den / 2 ^ exponentOf num den with hunits
    have hvalue : (num : ℚ) / den = units * 2 ^ exponentOf num den := by
      rw [hunits, div_mul_cancel₀ _ hunit.ne']
    rw [hvalue, ← mul_assoc, ← mul_assoc]
    constructor
    · gcongr
      linarith
    · gcongr
      linarith

/-- Rounding a quotient up to the greatest double of the format gives a double of the format. -/
theorem isFinite_nearest (h : (num : ℚ) / den ≤ greatest) : (nearest num den).isFinite = true := by
  by_cases hzero : num = 0 ∨ den = 0
  · rw [nearest_eq_zero hzero]
    rfl
  · rw [not_or] at hzero
    have hbelow : (2 : ℚ) ^ (exponentOf num den + 52) < 2 ^ (1024 : Int) := by
      exact ((exponentOf_bounds hzero.1 hzero.2).1.trans h).trans_lt greatest_lt
    have hexp := (zpow_lt_zpow_iff_right₀ (by norm_num : (1 : ℚ) < 2)).mp hbelow
    -- With the greatest exponent the mantissa cannot be rounded up to one of 54 bits.
    have hmantissa : exponentOf num den = 971 → roundedMantissa num den < 2 * leastMantissa := by
      intro hlast
      refine Nat.lt_of_le_of_lt (roundedMantissa_le hzero.2 (k := 2 ^ 53 - 1) ?_) (by decide)
      rw [hlast]
      exact h.trans (le_of_eq (by norm_num [greatest]))
    rw [nearest_eq hzero.1 hzero.2, isFinite, Bool.or_eq_true, decide_eq_true_eq, decide_eq_true_eq]
    right
    split <;> simp only <;> omega

/-- Rounding a quotient beyond the powers of two of the format overflows. -/
theorem isFinite_nearest_eq_false (hden : den ≠ 0) (h : 2 ^ (1024 : Int) ≤ (num : ℚ) / den) :
    (nearest num den).isFinite = false := by
  have hvalue := pow_le_nearest hden h
  have hmantissa : (nearest num den).mantissa ≠ 0 := by
    intro hzero
    rw [value, hzero, Nat.cast_zero, zero_mul] at hvalue
    exact absurd hvalue (by norm_num)
  have hbits : ((nearest num den).mantissa : ℚ) < 2 ^ (53 : Int) := by
    have hlt := ((mantissa_nearest num den).resolve_left hmantissa).2
    refine lt_of_lt_of_le (Nat.cast_lt.mpr hlt) (le_of_eq ?_)
    norm_num [leastMantissa]
  have hpow : (2 : ℚ) ^ (1024 : Int) < 2 ^ (53 + (nearest num den).exponent) := by
    rw [zpow_add₀ (by norm_num)]
    refine hvalue.trans_lt ?_
    rw [value]
    gcongr
  have hexp := (zpow_lt_zpow_iff_right₀ (by norm_num : (1 : ℚ) < 2)).mp hpow
  rw [isFinite, Bool.or_eq_false_iff, decide_eq_false_iff_not, decide_eq_false_iff_not]
  exact ⟨hmantissa, by omega⟩

/-! ### Arithmetic -/

/-- The product is rounded from the exact product. -/
theorem mul_exact (x y : Binary64) :
    ((x.num * y.num : Nat) : ℚ) / (x.den * y.den : Nat) = x.value * y.value := by
  rw [← num_div_den, ← num_div_den, Nat.cast_mul, Nat.cast_mul, div_mul_div_comm]

/-- The quotient is rounded from the exact quotient. -/
theorem div_exact (x y : Binary64) :
    ((x.num * y.den : Nat) : ℚ) / (x.den * y.num : Nat) = x.value / y.value := by
  rw [← num_div_den, ← num_div_den, Nat.cast_mul, Nat.cast_mul, div_div_div_eq]

/-- A natural number below a power of two is rounded to a double that does not exceed it. -/
theorem value_ofNat_le {n : Nat} {k : Int} (h : (n : ℚ) ≤ 2 ^ k) : (ofNat n).value ≤ 2 ^ k :=
  nearest_le_pow (by simpa using h)

/-- A positive natural number is rounded to one or more. -/
theorem one_le_value_ofNat {n : Nat} (h : n ≠ 0) : 1 ≤ (ofNat n).value := by
  have hone : (1 : ℚ) ≤ n := mod_cast Nat.one_le_iff_ne_zero.mpr h
  have hpow : (2 : ℚ) ^ (0 : Int) ≤ (ofNat n).value :=
    pow_le_nearest one_ne_zero (by simpa using hone)
  rwa [zpow_zero] at hpow

/-- A rounded product does not exceed a power of two that the exact one does not exceed. -/
theorem value_mul_le {x y : Binary64} {k : Int} (h : x.value * y.value ≤ 2 ^ k) :
    (x * y).value ≤ 2 ^ k :=
  nearest_le_pow (by rwa [mul_exact])

/-- A rounded quotient does not exceed a power of two that the exact one does not exceed. -/
theorem value_div_le {x y : Binary64} {k : Int} (h : x.value / y.value ≤ 2 ^ k) :
    (x / y).value ≤ 2 ^ k :=
  nearest_le_pow (by rwa [div_exact])

/-- A rounded quotient has at most 53 bits. -/
theorem mantissa_div_lt (x y : Binary64) : (x / y).mantissa < 2 * leastMantissa := by
  have hmantissa : (x / y).mantissa = 0 ∨
      leastMantissa ≤ (x / y).mantissa ∧ (x / y).mantissa < 2 * leastMantissa :=
    mantissa_nearest (x.num * y.den) (x.den * y.num)
  have hleast : 0 < 2 * leastMantissa := by decide
  omega

/-- The nearest integer does not exceed a natural number that the double does not exceed. -/
theorem roundToInteger_le {x : Binary64} {k : Nat} (h : x.value ≤ k) : x.roundToInteger ≤ k := by
  refine roundQuotient_le ((div_le_natCast_iff x.den_pos.ne').mp ?_)
  rwa [num_div_den]

end Binary64

end ServiceHealth.Number
