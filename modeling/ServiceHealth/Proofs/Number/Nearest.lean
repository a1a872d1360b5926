import Mathlib.Algebra.Order.Ring.Abs
import ServiceHealth.Proofs.Number.Binary64

/-!
# What rounding chooses

Rounding to an integer and rounding to a double are told here without their algorithms: which
natural number a rational number is rounded to, and which rational numbers a double takes in. Both
say that the choice depends on the number alone and not on the fraction that it is given as, so that
the operations can be followed on exact values.

A double takes in all numbers up to half of the way to its neighbours, and the midpoints themselves
when its mantissa is even. The neighbour below a power of two is only half as far.

## Main definitions

* `RoundsTo` — a natural number is a rational number rounded, a tie going to the even one.
* `Binary64.IsNormal` — a mantissa of exactly 53 bits.
* `Binary64.TakesIn` — the numbers whose nearest double is a given one.

## Main results

* `roundQuotient_eq_iff` — rounding a quotient.
* `Binary64.nearest_eq_iff` — the nearest double of a quotient.
* `Binary64.nearest_congr` — the nearest double depends on the quotient alone.
* `Binary64.value_nearest_of_fits` — a number of at most 53 bits is not moved.
-/

namespace ServiceHealth.Number

/-! ### Rounding to an integer -/

/-- A natural number is the rational number rounded to the nearest one, a tie going to the even
one. -/
def RoundsTo (q : ℚ) (k : Nat) : Prop :=
  |q - k| ≤ 1 / 2 ∧ (|q - k| = 1 / 2 → k % 2 = 0)

/-- A number is rounded to whatever natural number is less than one half away. -/
theorem RoundsTo.of_lt {q : ℚ} {k : Nat} (h : |q - k| < 1 / 2) : RoundsTo q k :=
  ⟨h.le, fun heq => absurd heq h.ne⟩

/-- Rounding takes both ends of the interval around an even number, and none around an odd one. -/
theorem roundsTo_iff {q : ℚ} {k : Nat} : RoundsTo q k ↔
    if k % 2 = 0 then k - 1 / 2 ≤ q ∧ q ≤ k + 1 / 2 else k - 1 / 2 < q ∧ q < k + 1 / 2 := by
  rw [RoundsTo]
  split
  next heven =>
    rw [and_iff_left fun _ => heven, abs_le]
    constructor <;> rintro ⟨hlow, hhigh⟩ <;> constructor <;> linarith
  next hodd =>
    rw [imp_iff_not hodd, ← lt_iff_le_and_ne, abs_lt]
    constructor <;> rintro ⟨hlow, hhigh⟩ <;> constructor <;> linarith

/-- A number is rounded to one natural number only: of two neighbours that are both one half away,
one is odd. -/
theorem RoundsTo.unique {q : ℚ} {k k' : Nat} (h : RoundsTo q k) (h' : RoundsTo q k') : k = k' := by
  wlog hlt : k < k' generalizing k k'
  · rcases Nat.lt_trichotomy k k' with hk | hk | hk
    · exact absurd hk hlt
    · exact hk
    · exact (this h' h hk).symm
  have hcast : (k : ℚ) + 1 ≤ k' := by exact_mod_cast hlt
  obtain ⟨hlow, hhigh⟩ := abs_le.mp h.1
  obtain ⟨hlow', hhigh'⟩ := abs_le.mp h'.1
  have hmid : q - k = 1 / 2 := by linarith
  have hmid' : q - k' = -(1 / 2) := by linarith
  have heven := h.2 (by rw [hmid]; norm_num)
  have heven' := h'.2 (by rw [hmid']; norm_num)
  have hnext : k' = k + 1 := by
    have : (k' : ℚ) = k + 1 := by linarith
    exact_mod_cast this
  omega

/-- Natural numbers less than one apart are the same. -/
theorem eq_of_abs_sub_lt_one {a b : Nat} (h : |(a : ℚ) - b| < 1) : a = b := by
  have hcast : |(a : Int) - b| < 1 := by exact_mod_cast h
  rw [Int.abs_lt_one_iff] at hcast
  omega

/-- A quotient is its whole part and the remainder over the denominator. -/
theorem div_eq_whole_add (num : Nat) {den : Nat} (hden : den ≠ 0) :
    (num : ℚ) / den = (num / den : Nat) + (num % den : Nat) / den := by
  have hpos : (0 : ℚ) < den := by positivity
  rw [div_eq_iff hpos.ne', add_mul, div_mul_cancel₀ _ hpos.ne']
  exact_mod_cast (Nat.div_add_mod' num den).symm

/-- A fraction and one half. -/
theorem div_half_iff (num : Nat) {den : Nat} (hden : den ≠ 0) :
    ((num : ℚ) / den < 1 / 2 ↔ 2 * num < den) ∧ (1 / 2 < (num : ℚ) / den ↔ den < 2 * num) := by
  have hpos : (0 : ℚ) < den := by positivity
  rw [div_lt_div_iff₀ hpos two_pos, div_lt_div_iff₀ two_pos hpos, one_mul, mul_comm (num : ℚ)]
  exact_mod_cast And.intro Iff.rfl Iff.rfl

/-- Rounding a quotient gives the nearest natural number. -/
theorem roundsTo_roundQuotient (num : Nat) {den : Nat} (hden : den ≠ 0) :
    RoundsTo ((num : ℚ) / den) (roundQuotient num den) := by
  obtain ⟨hbelow, habove⟩ := div_half_iff (num % den) hden
  have hnonneg : (0 : ℚ) ≤ (num % den : Nat) / den := by positivity
  have hone : ((num % den : Nat) : ℚ) / den < 1 := by
    rw [div_lt_one (by positivity)]
    exact_mod_cast Nat.mod_lt num (Nat.pos_of_ne_zero hden)
  rw [div_eq_whole_add num hden, roundQuotient]
  split_ifs with hless hmore heven
  · have hless' := hbelow.mpr hless
    refine RoundsTo.of_lt ?_
    rwa [add_sub_cancel_left, abs_of_nonneg hnonneg]
  · have hmore' := habove.mpr hmore
    refine RoundsTo.of_lt ?_
    push_cast
    rw [abs_lt]
    constructor <;> linarith
  · have hmid := not_lt.mp (mt habove.mp hmore)
    rw [roundsTo_iff, if_pos heven]
    constructor <;> linarith
  · have hmid := not_lt.mp (mt hbelow.mp hless)
    rw [roundsTo_iff, if_pos (by omega)]
    push_cast
    constructor <;> linarith

/-- The natural number that a quotient is rounded to. -/
theorem roundQuotient_eq_iff {num den k : Nat} (hden : den ≠ 0) :
    roundQuotient num den = k ↔ RoundsTo ((num : ℚ) / den) k := by
  refine ⟨?_, fun h => (roundsTo_roundQuotient num hden).unique h⟩
  rintro rfl
  exact roundsTo_roundQuotient num hden

namespace Binary64

variable {num den : Nat}

/-! ### The exponent and the mantissa -/

/-- The least mantissa as a power of two. -/
theorem leastMantissa_eq : leastMantissa = 2 ^ 52 := rfl

/-- The larger power of two has the larger exponent. -/
theorem lt_of_pow_lt {a b : Int} (h : (2 : ℚ) ^ a < 2 ^ b) : a < b :=
  (zpow_lt_zpow_iff_right₀ (by norm_num)).mp h

/-- Quotients with mantissas of 53 bits as numbers of units. -/
theorem pow_le_iff {q : ℚ} {e : Int} :
    ((2 : ℚ) ^ (e + 52) ≤ q ↔ (leastMantissa : ℚ) ≤ q / 2 ^ e) ∧
      (q < (2 : ℚ) ^ (e + 53) ↔ q / 2 ^ e < 2 * leastMantissa) := by
  have hunit : (0 : ℚ) < 2 ^ e := by positivity
  rw [zpow_add₀ (by norm_num), zpow_add₀ (by norm_num), le_div_iff₀' hunit, div_lt_iff₀' hunit]
  norm_num [leastMantissa]

/-- The exponent of a quotient is the only one that puts it between `2 ^ 52` and `2 ^ 53` units. -/
theorem exponentOf_eq (hnum : num ≠ 0) (hden : den ≠ 0) {e : Int}
    (hlow : (leastMantissa : ℚ) ≤ num / den / 2 ^ e)
    (hhigh : (num : ℚ) / den / 2 ^ e < 2 * leastMantissa) : exponentOf num den = e := by
  obtain ⟨hlow', hhigh'⟩ := exponentOf_bounds hnum hden
  rw [← pow_le_iff.1] at hlow
  rw [← pow_le_iff.2] at hhigh
  have hle := lt_of_pow_lt (hlow.trans_lt hhigh')
  have hge := lt_of_pow_lt (hlow'.trans_lt hhigh)
  omega

/-- The mantissa is the quotient in its units, rounded. -/
theorem roundsTo_roundedMantissa (num : Nat) (hden : den ≠ 0) :
    RoundsTo ((num : ℚ) / den / 2 ^ exponentOf num den) (roundedMantissa num den) := by
  have hscale := wholePower_pos two_ne_zero (exponentOf num den)
  rw [← div_eq_scaled]
  exact roundsTo_roundQuotient _ (by positivity)

/-- A double whose mantissa has exactly 53 bits. -/
def IsNormal (x : Binary64) : Prop :=
  leastMantissa ≤ x.mantissa ∧ x.mantissa < 2 * leastMantissa

/-- Rounding a positive quotient gives a mantissa of 53 bits. -/
theorem isNormal_nearest (hnum : num ≠ 0) (hden : den ≠ 0) : (nearest num den).IsNormal := by
  refine (mantissa_nearest num den).resolve_left fun hzero => ?_
  have hlow := (roundedMantissa_bounds hnum hden).1
  rw [nearest_eq hnum hden] at hzero
  split at hzero
  · have hleast : leastMantissa = 0 := hzero
    exact absurd hleast (by decide)
  · rw [show roundedMantissa num den = 0 from hzero] at hlow
    exact absurd hlow (by decide)

/-- A double is positive if its mantissa has 53 bits. -/
theorem IsNormal.value_pos {x : Binary64} (hx : x.IsNormal) : 0 < x.value := by
  have hpos : 0 < x.mantissa := Nat.lt_of_lt_of_le (by decide) hx.1
  rw [value]
  positivity

/-- A bound of a double bounds its unit. -/
theorem IsNormal.exponent_lt {x : Binary64} (hx : x.IsNormal) {k : Int}
    (h : x.value < 2 ^ (k + 52)) : x.exponent < k := by
  have hunits : (2 : ℚ) ^ (x.exponent + 52) ≤ x.value := by
    rw [zpow_add₀ (by norm_num), mul_comm, value]
    gcongr
    exact_mod_cast hx.1
  have := lt_of_pow_lt (hunits.trans_lt h)
  omega

/-! ### The numbers that a double takes in -/

/-- Half of the way down to the neighbour of a double, in quarters of its unit: below a power of two
the neighbour is half as far. -/
def quartersBelow (x : Binary64) : Nat := if x.mantissa = leastMantissa then 1 else 2

/-- A number is within the interval around a double up to the midpoints on both sides, and on a
midpoint only if the mantissa is even. -/
def TakesIn (x : Binary64) (q : ℚ) : Prop :=
  if x.mantissa % 2 = 0 then
    (x.mantissa : ℚ) - x.quartersBelow / 4 ≤ q / 2 ^ x.exponent ∧
      q / 2 ^ x.exponent ≤ x.mantissa + 1 / 2
  else
    (x.mantissa : ℚ) - x.quartersBelow / 4 < q / 2 ^ x.exponent ∧
      q / 2 ^ x.exponent < x.mantissa + 1 / 2

/-- A number that a double takes in is half a unit below it at most. -/
theorem quartersBelow_le (x : Binary64) : (x.quartersBelow : ℚ) / 4 ≤ 1 / 2 := by
  rw [quartersBelow]
  split <;> norm_num

/-- What a double takes in is half a unit away from it at most. -/
theorem TakesIn.abs_sub_le {x : Binary64} {q : ℚ} (h : x.TakesIn q) :
    |q - x.value| ≤ 2 ^ x.exponent / 2 := by
  have hunit : (0 : ℚ) < 2 ^ x.exponent := by positivity
  have hbelow := x.quartersBelow_le
  have hunits : |q / 2 ^ x.exponent - x.mantissa| ≤ 1 / 2 := by
    rw [TakesIn] at h
    rw [abs_le]
    split at h <;> constructor <;> linarith
  calc |q - x.value| = |q / 2 ^ x.exponent - x.mantissa| * 2 ^ x.exponent := by
        rw [← abs_of_pos hunit, ← abs_mul, abs_of_pos hunit, sub_mul, div_mul_cancel₀ _ hunit.ne',
          value]
    _ ≤ 1 / 2 * 2 ^ x.exponent := by gcongr
    _ = 2 ^ x.exponent / 2 := by ring

/-- A double takes in what lies between two numbers that it takes in. -/
theorem TakesIn.between {x : Binary64} {a q b : ℚ} (ha : x.TakesIn a) (hb : x.TakesIn b)
    (hlow : a ≤ q) (hhigh : q ≤ b) : x.TakesIn q := by
  have hlow' : a / 2 ^ x.exponent ≤ q / 2 ^ x.exponent := by gcongr
  have hhigh' : q / 2 ^ x.exponent ≤ b / 2 ^ x.exponent := by gcongr
  rw [TakesIn] at *
  split
  next heven =>
    rw [if_pos heven] at ha hb
    exact ⟨ha.1.trans hlow', hhigh'.trans hb.2⟩
  next hodd =>
    rw [if_neg hodd] at ha hb
    exact ⟨ha.1.trans_le hlow', hhigh'.trans_lt hb.2⟩

/-- A number from the least mantissa on is taken in just when it is rounded to the mantissa in its
units: the neighbour below a power of two plays no part in that. -/
theorem takesIn_iff_of_le {x : Binary64} {q : ℚ}
    (hq : (leastMantissa : ℚ) ≤ q / 2 ^ x.exponent) :
    x.TakesIn q ↔ RoundsTo (q / 2 ^ x.exponent) x.mantissa := by
  rw [TakesIn, roundsTo_iff, quartersBelow]
  split
  next heven =>
    refine and_congr_left fun _ => ?_
    split
    next hleast =>
      rw [hleast]
      constructor <;> intro <;> push_cast <;> linarith
    next => norm_num
  next hodd =>
    have hleast : x.mantissa ≠ leastMantissa := by
      intro h
      rw [h] at hodd
      exact hodd (by decide)
    rw [if_neg hleast]
    norm_num

/-- A number below the least mantissa is taken in only as the lower neighbour of a power of two:
then the least mantissa is the number in units, rounded to halves. -/
theorem takesIn_iff_of_lt {x : Binary64} (hx : x.IsNormal) {q : ℚ}
    (hq : q / 2 ^ x.exponent < leastMantissa) :
    x.TakesIn q ↔ x.mantissa = leastMantissa ∧
      RoundsTo (q / 2 ^ (x.exponent - 1)) (2 * leastMantissa) := by
  have hhalf : q / 2 ^ (x.exponent - 1) = 2 * (q / 2 ^ x.exponent) := by
    rw [zpow_sub₀ (by norm_num), zpow_one]
    field_simp
  have heven : 2 * leastMantissa % 2 = 0 := Nat.mul_mod_right 2 _
  rw [hhalf, roundsTo_iff, if_pos heven, TakesIn, quartersBelow]
  push_cast
  by_cases hleast : x.mantissa = leastMantissa
  · rw [hleast, if_pos (by decide), if_pos rfl]
    simp only [true_and]
    constructor <;> rintro ⟨hlow, hhigh⟩ <;> constructor <;> linarith
  · have hnext : (leastMantissa : ℚ) + 1 ≤ x.mantissa := by
      exact_mod_cast Nat.lt_of_le_of_ne hx.1 (Ne.symm hleast)
    simp only [hleast, if_false, false_and, iff_false]
    split <;> rintro ⟨hlow, -⟩ <;> linarith

/-- The nearest double of a quotient whose units are known. -/
theorem nearest_eq_of_units (hnum : num ≠ 0) (hden : den ≠ 0) {e : Int} {m : Nat}
    (hlow : (leastMantissa : ℚ) ≤ num / den / 2 ^ e)
    (hhigh : (num : ℚ) / den / 2 ^ e < 2 * leastMantissa)
    (hround : RoundsTo ((num : ℚ) / den / 2 ^ e) m) :
    nearest num den = if m = 2 * leastMantissa then ⟨leastMantissa, e + 1⟩ else ⟨m, e⟩ := by
  obtain rfl := exponentOf_eq hnum hden hlow hhigh
  obtain rfl := hround.unique (roundsTo_roundedMantissa num hden)
  exact nearest_eq hnum hden

/-- The nearest double takes its quotient in. -/
theorem takesIn_nearest (hnum : num ≠ 0) (hden : den ≠ 0) :
    (nearest num den).TakesIn ((num : ℚ) / den) := by
  have hround := roundsTo_roundedMantissa num hden
  obtain ⟨hlow, hhigh⟩ := exponentOf_bounds hnum hden
  rw [pow_le_iff.1] at hlow
  rw [pow_le_iff.2] at hhigh
  have hnormal := isNormal_nearest hnum hden
  rw [nearest_eq hnum hden] at hnormal ⊢
  generalize exponentOf num den = e at *
  generalize roundedMantissa num den = m at *
  split at hnormal
  next hfull =>
    rw [if_pos hfull]
    have hnext : (num : ℚ) / den / 2 ^ (e + 1) < leastMantissa := by
      rw [zpow_add₀ (by norm_num), zpow_one, ← div_div]
      linarith
    refine (takesIn_iff_of_lt hnormal hnext).mpr ⟨rfl, ?_⟩
    rw [← hfull, Int.add_sub_cancel]
    exact hround
  next hfull =>
    rw [if_neg hfull]
    exact (takesIn_iff_of_le (x := ⟨m, e⟩) hlow).mpr hround

/-- The double nearest to a quotient is the one that takes it in. -/
theorem nearest_eq_iff {x : Binary64} (hx : x.IsNormal) (hnum : num ≠ 0) (hden : den ≠ 0) :
    nearest num den = x ↔ x.TakesIn ((num : ℚ) / den) := by
  refine ⟨fun h => h ▸ takesIn_nearest hnum hden, fun h => ?_⟩
  rcases le_or_gt (leastMantissa : ℚ) (num / den / 2 ^ x.exponent) with hlow | hlow
  · have hround := (takesIn_iff_of_le hlow).mp h
    have hmantissa : (x.mantissa : ℚ) + 1 ≤ 2 * leastMantissa := by exact_mod_cast hx.2
    have hhigh : (num : ℚ) / den / 2 ^ x.exponent < 2 * leastMantissa := by
      linarith [(abs_le.mp hround.1).2]
    rw [nearest_eq_of_units hnum hden hlow hhigh hround, if_neg hx.2.ne]
  · obtain ⟨hleast, hround⟩ := (takesIn_iff_of_lt hx hlow).mp h
    have hhalf : (num : ℚ) / den / 2 ^ (x.exponent - 1) = 2 * (num / den / 2 ^ x.exponent) := by
      rw [zpow_sub₀ (by norm_num), zpow_one]
      field_simp
    have hunits := (abs_le.mp hround.1).1
    have hfull : (1 : ℚ) ≤ leastMantissa := by norm_num [leastMantissa]
    push_cast at hunits
    rw [nearest_eq_of_units hnum hden (by linarith) (by linarith) hround, if_pos rfl,
      Int.sub_add_cancel, ← hleast]

/-- A number is taken in by one double only. -/
theorem TakesIn.unique {x y : Binary64} (hx : x.IsNormal) (hy : y.IsNormal) {q : ℚ} (hq : 0 < q)
    (h : x.TakesIn q) (h' : y.TakesIn q) : x = y := by
  obtain ⟨num, hnum⟩ := Int.eq_ofNat_of_zero_le (Rat.num_pos.mpr hq).le
  have hpos : num ≠ 0 := by
    have := Rat.num_pos.mpr hq
    omega
  have hfraction : q = num / q.den := by
    rw [← Int.cast_natCast num, ← hnum, Rat.num_div_den]
  rw [hfraction] at h h'
  have hnearest := (nearest_eq_iff hx hpos q.den_ne_zero).mpr h
  have hnearest' := (nearest_eq_iff hy hpos q.den_ne_zero).mpr h'
  rw [← hnearest, ← hnearest']

/-- The nearest double depends on the quotient alone, not on the fraction. -/
theorem nearest_congr {num' den' : Nat} (hden : den ≠ 0) (hden' : den' ≠ 0)
    (h : (num : ℚ) / den = num' / den') : nearest num den = nearest num' den' := by
  rw [div_eq_div_iff (by positivity) (by positivity)] at h
  by_cases hnum : num = 0
  · have hnum' : num' = 0 := by
      rw [hnum, Nat.cast_zero, zero_mul] at h
      simpa [hden] using h.symm
    rw [nearest_eq_zero (.inl hnum), nearest_eq_zero (.inl hnum')]
  · have hnum' : num' ≠ 0 := by
      rintro rfl
      rw [Nat.cast_zero, zero_mul] at h
      simp [hnum, hden'] at h
    rw [nearest_eq_iff (isNormal_nearest hnum' hden') hnum hden]
    rw [← div_eq_div_iff (by positivity) (by positivity)] at h
    rw [h]
    exact takesIn_nearest hnum' hden'

/-- Two numbers in the same units have one nearest double if neither midpoint of its mantissa lies
between them. -/
theorem nearest_eq_nearest_of_close {num' den' : Nat} (hden : den ≠ 0) (hden' : den' ≠ 0) {p q : ℚ}
    (hp : (num : ℚ) / den = p) (hq : (num' : ℚ) / den' = q) {e : Int} {m : Nat}
    (hunits : 2 ^ (e + 52) ≤ p ∧ p < 2 ^ (e + 53)) (hunits' : 2 ^ (e + 52) ≤ q ∧ q < 2 ^ (e + 53))
    (hround : RoundsTo (q / 2 ^ e) m)
    (hclose : |p / 2 ^ e - q / 2 ^ e| + |q / 2 ^ e - m| < 1 / 2) :
    nearest num den = nearest num' den' := by
  rw [pow_le_iff.1, pow_le_iff.2] at hunits hunits'
  have hround' : RoundsTo (p / 2 ^ e) m := by
    refine RoundsTo.of_lt (lt_of_le_of_lt ?_ hclose)
    have hsplit := abs_add_le (p / 2 ^ e - q / 2 ^ e) (q / 2 ^ e - m)
    rwa [sub_add_sub_cancel] at hsplit
  have hleast : (0 : ℚ) < leastMantissa := by norm_num [leastMantissa]
  have hnum : num ≠ 0 := by
    rintro rfl
    rw [← hp, Nat.cast_zero, zero_div, zero_div] at hunits
    exact absurd hunits.1 (not_le.mpr hleast)
  have hnum' : num' ≠ 0 := by
    rintro rfl
    rw [← hq, Nat.cast_zero, zero_div, zero_div] at hunits'
    exact absurd hunits'.1 (not_le.mpr hleast)
  subst hp hq
  rw [nearest_eq_of_units hnum hden hunits.1 hunits.2 hround',
    nearest_eq_of_units hnum' hden' hunits'.1 hunits'.2 hround]

/-- A double takes its own number in. -/
theorem takesIn_value (x : Binary64) : x.TakesIn x.value := by
  have hunit : (0 : ℚ) < 2 ^ x.exponent := by positivity
  have hbelow : (0 : ℚ) < x.quartersBelow / 4 := by
    rw [quartersBelow]
    split <;> norm_num
  rw [TakesIn, value, mul_div_cancel_right₀ _ hunit.ne']
  split <;> constructor <;> linarith

/-- Rounding the number of a nearest double again changes nothing. -/
theorem nearest_of_eq_value {num' den' : Nat} (hden : den ≠ 0)
    (h : (num : ℚ) / den = (nearest num' den').value) : nearest num den = nearest num' den' := by
  by_cases hzero : num' = 0 ∨ den' = 0
  · have hnum : num = 0 := by
      rw [nearest_eq_zero hzero, div_eq_iff (by positivity)] at h
      simpa [value, zero] using h
    rw [nearest_eq_zero (.inl hnum), nearest_eq_zero hzero]
  · rw [not_or] at hzero
    have hnormal := isNormal_nearest hzero.1 hzero.2
    have hnum : num ≠ 0 := by
      rintro rfl
      rw [Nat.cast_zero, zero_div] at h
      exact hnormal.value_pos.ne h
    rw [nearest_eq_iff hnormal hnum hden, h]
    exact takesIn_value _

/-- Rounding moves a number by half a unit at most. -/
theorem abs_nearest_sub_le (hden : den ≠ 0) {k : Int} (h : (num : ℚ) / den < 2 ^ (k + 53)) :
    |(nearest num den).value - num / den| ≤ 2 ^ k / 2 := by
  by_cases hnum : num = 0
  · have hzero : (nearest num den).value = 0 := by
      rw [nearest_eq_zero (.inl hnum)]
      simp [value, zero]
    rw [hzero, hnum, Nat.cast_zero, zero_div, sub_zero, abs_zero]
    positivity
  · have hbits := (exponentOf_bounds hnum hden).1
    have hexp := lt_of_pow_lt (hbits.trans_lt h)
    have hunit : (0 : ℚ) < 2 ^ exponentOf num den := by positivity
    have hround := (roundsTo_roundedMantissa num hden).1
    rw [value_nearest hnum hden, abs_sub_comm]
    calc |(num : ℚ) / den - roundedMantissa num den * 2 ^ exponentOf num den|
        = |(num : ℚ) / den / 2 ^ exponentOf num den - roundedMantissa num den| *
            2 ^ exponentOf num den := by
          rw [← abs_of_pos hunit, ← abs_mul, abs_of_pos hunit, sub_mul,
            div_mul_cancel₀ _ hunit.ne']
      _ ≤ 1 / 2 * 2 ^ k := by
          gcongr
          · norm_num
          · omega
      _ = 2 ^ k / 2 := by ring

/-- A number with at most 53 bits is not moved. -/
theorem value_nearest_of_fits (hden : den ≠ 0) {m : Nat} {e : Int} (hm : m ≤ 2 * leastMantissa)
    (h : (num : ℚ) / den = m * 2 ^ e) : (nearest num den).value = m * 2 ^ e := by
  by_cases hnum : num = 0
  · rw [nearest_eq_zero (.inl hnum), ← h, hnum]
    simp [value, zero]
  · obtain ⟨hlow, -⟩ := exponentOf_bounds hnum hden
    have hpos : (0 : ℚ) < m * 2 ^ e := by
      rw [← h]
      positivity
    have hbits : (m : ℚ) * 2 ^ e ≤ 2 ^ (e + 53) := by
      rw [zpow_add₀ (by norm_num), mul_comm]
      gcongr
      refine le_trans (Nat.cast_le.mpr hm) ?_
      norm_num [leastMantissa]
    have hexp : exponentOf num den ≤ e + 1 := by
      rw [h] at hlow
      have := (zpow_le_zpow_iff_right₀ (by norm_num : (1 : ℚ) < 2)).mp (hlow.trans hbits)
      omega
    -- The number is whole in its own units: its exponent is at most `e`, or it is `2 ^ (e + 53)`.
    obtain ⟨k, hk⟩ : ∃ k : Nat, (m : ℚ) * 2 ^ e = k * 2 ^ exponentOf num den := by
      rcases le_or_gt (exponentOf num den) e with hle | hgt
      · obtain ⟨n, hn⟩ := pow_eq_natCast_mul hle
        exact ⟨m * n, by rw [hn]; push_cast; ring⟩
      · have heq : exponentOf num den = e + 1 := by omega
        refine ⟨leastMantissa, le_antisymm (hbits.trans (le_of_eq ?_)) ?_⟩
        · rw [heq, zpow_add₀ (by norm_num), zpow_add₀ (by norm_num)]
          norm_num [leastMantissa]
          ring
        · rw [h] at hlow
          refine le_trans (le_of_eq ?_) hlow
          rw [zpow_add₀ (by norm_num)]
          norm_num [leastMantissa]
          ring
    rw [value_nearest hnum hden, hk]
    congr 2
    exact Nat.le_antisymm (roundedMantissa_le hden (by rw [h, hk]))
      (le_roundedMantissa hden (by rw [h, hk]))

/-! ### Operations -/

/-- Natural numbers up to `2 ^ 53` are doubles. -/
theorem value_ofNat {n : Nat} (h : n ≤ 2 * leastMantissa) : (ofNat n).value = n := by
  have hfits : (ofNat n).value = n * 2 ^ (0 : Int) :=
    value_nearest_of_fits one_ne_zero h (by rw [Nat.cast_one, div_one, zpow_zero, mul_one])
  rwa [zpow_zero, mul_one] at hfits

/-- A natural number is off by one part in `2 ^ 53` at most as a double. -/
theorem value_ofNat_error (n : Nat) :
    (1 - 1 / 2 ^ 53) * (n : ℚ) ≤ (ofNat n).value ∧
      (ofNat n).value ≤ (1 + 1 / 2 ^ 53) * (n : ℚ) := by
  have h := value_nearest_error n one_ne_zero
  rwa [Nat.cast_one, div_one] at h

/-- The quotient of two natural numbers up to `2 ^ 53` is rounded once. -/
theorem ofNat_div_ofNat {a b : Nat} (ha : a ≤ 2 * leastMantissa) (hb : b ≤ 2 * leastMantissa)
    (hpos : b ≠ 0) : ofNat a / ofNat b = nearest a b := by
  have hnum : (ofNat b).num ≠ 0 := by
    intro hzero
    have hvalue := value_ofNat hb
    rw [← num_div_den, hzero, Nat.cast_zero, zero_div] at hvalue
    exact hpos (by exact_mod_cast hvalue.symm)
  refine nearest_congr (Nat.mul_ne_zero (ofNat a).den_pos.ne' hnum) hpos ?_
  rw [div_exact, value_ofNat ha, value_ofNat hb]

/-- The sum is rounded from the exact sum. -/
theorem add_exact (x y : Binary64) :
    ((x.num * y.den + y.num * x.den : Nat) : ℚ) / (x.den * y.den : Nat) = x.value + y.value := by
  have hx : (x.den : ℚ) ≠ 0 := Nat.cast_ne_zero.mpr x.den_pos.ne'
  have hy : (y.den : ℚ) ≠ 0 := Nat.cast_ne_zero.mpr y.den_pos.ne'
  rw [← num_div_den x, ← num_div_den y]
  push_cast
  field_simp

/-- A rounded product is off by one part in `2 ^ 53` at most. -/
theorem value_mul_error (x y : Binary64) :
    (1 - 1 / 2 ^ 53) * (x.value * y.value) ≤ (x * y).value ∧
      (x * y).value ≤ (1 + 1 / 2 ^ 53) * (x.value * y.value) := by
  have h := value_nearest_error (x.num * y.num) (Nat.mul_pos x.den_pos y.den_pos).ne'
  rwa [mul_exact] at h

/-- The numerator of a positive double is not zero. -/
theorem num_ne_zero {x : Binary64} (h : 0 < x.value) : x.num ≠ 0 := by
  intro hzero
  rw [← num_div_den, hzero, Nat.cast_zero, zero_div] at h
  exact h.false

/-- A rounded quotient is off by one part in `2 ^ 53` at most. -/
theorem value_div_error (x : Binary64) {y : Binary64} (hy : 0 < y.value) :
    (1 - 1 / 2 ^ 53) * (x.value / y.value) ≤ (x / y).value ∧
      (x / y).value ≤ (1 + 1 / 2 ^ 53) * (x.value / y.value) := by
  have h := value_nearest_error (x.num * y.den) (Nat.mul_ne_zero x.den_pos.ne' (num_ne_zero hy))
  rwa [div_exact] at h

/-- The nearest integer of a double is its number, rounded. -/
theorem roundsTo_roundToInteger (x : Binary64) : RoundsTo x.value x.roundToInteger := by
  rw [← num_div_den]
  exact roundsTo_roundQuotient _ x.den_pos.ne'

/-- A product of at most 53 bits is exact. -/
theorem value_mul_of_fits {x y : Binary64} {m : Nat} {e : Int} (hm : m ≤ 2 * leastMantissa)
    (h : x.value * y.value = m * 2 ^ e) : (x * y).value = m * 2 ^ e :=
  value_nearest_of_fits (Nat.mul_pos x.den_pos y.den_pos).ne' hm (by rw [mul_exact, h])

end Binary64

end ServiceHealth.Number
