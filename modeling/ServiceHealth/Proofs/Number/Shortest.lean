import Mathlib.Data.Nat.Cast.Order.Field
import ServiceHealth.Number.Shortest
import ServiceHealth.Proofs.Number.Binary64

/-!
# The size of shortest decimals

The shortest decimal of a double is one of the two neighbours of the double on some grid of
decimals. No grid that is tried is coarser than the double is large, up to two places, so the
decimal is not much larger than the double.

## Main definitions

* `Decimal.value` — the rational number that a decimal denotes.

## Main results

* `Binary64.value_shortest_lt` — the shortest decimal of a double up to `2 ^ 71`.
* `Decimal.whole_le` — the whole part of a decimal.
-/

namespace ServiceHealth.Number

/-- The rational number that a decimal denotes. -/
def Decimal.value (d : Decimal) : ℚ := d.digits * 10 ^ d.exponent

namespace Binary64

/-- Moving zeros into the exponent does not change the number. -/
theorem value_stripZeros (fuel c : Nat) (e : Int) :
    (stripZeros fuel c e).value = c * 10 ^ e := by
  induction fuel generalizing c e with
  | zero => rfl
  | succ fuel ih =>
    rw [stripZeros]
    split
    next h =>
      have hc : c = 10 * (c / 10) := by omega
      rw [ih, zpow_add₀ (by norm_num)]
      nth_rewrite 2 [hc]
      push_cast
      ring
    next => rfl

/-- A neighbour of a double on a grid is at most one step above it. -/
theorem onGrid?_le {x : Binary64} {e : Int} {c : Nat} (h : x.onGrid? e = some c) :
    (c : ℚ) * 10 ^ e ≤ x.value + 10 ^ e := by
  set num := x.num * wholePower 10 (-e) with hnum
  set den := x.den * wholePower 10 e with hden
  have hpos : 0 < den := Nat.mul_pos x.den_pos (wholePower_pos (by norm_num) e)
  have hround : roundQuotient num den ≤ num / den + 1 := by
    refine roundQuotient_le ?_
    have := Nat.lt_div_mul_add hpos (a := num)
    rw [Nat.add_mul, Nat.one_mul]
    exact this.le
  have hc : c ≤ num / den + 1 := by
    rw [onGrid?] at h
    simp only [← hnum, ← hden] at h
    split at h
    · obtain rfl := Option.some.inj h
      exact hround
    · obtain rfl := Option.some.inj h
      omega
    · obtain rfl := Option.some.inj h
      exact le_rfl
    · cases h
  have hfloor : ((num / den : Nat) : ℚ) ≤ x.value / 10 ^ e := by
    have hscaled := scaled_div x.num x.den (by norm_num : 10 ≠ 0) e
    rw [← hnum, ← hden, num_div_den, Nat.cast_ofNat] at hscaled
    rw [← hscaled]
    exact Nat.cast_div_le
  have hten : (0 : ℚ) < 10 ^ e := by positivity
  calc (c : ℚ) * 10 ^ e ≤ ((num / den : Nat) + 1) * 10 ^ e := by
        gcongr
        exact_mod_cast hc
    _ ≤ (x.value / 10 ^ e + 1) * 10 ^ e := by gcongr
    _ = x.value + 10 ^ e := by rw [add_mul, div_mul_cancel₀ _ hten.ne', one_mul]

/-- The estimate of the leading digit of a quotient is at most two places too high. -/
theorem leadingExponent_le (num den : Nat) :
    leadingExponent num den ≤ ((num.log2 : Int) - den.log2) * 30103 / 100000 + 1 := by
  rw [leadingExponent]
  split_ifs <;> omega

/-- The leading digit of a double up to `2 ^ 71` is at the twenty-second place at most. -/
theorem leadingExponent_le_of_value_le {x : Binary64} (hx : x.mantissa ≠ 0)
    (h : x.value ≤ 2 ^ (71 : Int)) : leadingExponent x.num x.den ≤ 22 := by
  have hnum : x.num ≠ 0 := Nat.mul_ne_zero hx (wholePower_pos (by norm_num) _).ne'
  obtain ⟨hlow, -⟩ := div_log2_bounds hnum x.den_pos.ne'
  rw [num_div_den] at hlow
  have hlog := (zpow_le_zpow_iff_right₀ (by norm_num : (1 : ℚ) < 2)).mp (hlow.trans h)
  have hlead := leadingExponent_le x.num x.den
  omega

/-- The numerator of a double is the double itself, or its mantissa if that is larger. -/
theorem num_le {x : Binary64} {b : ℚ} (hmantissa : (x.mantissa : ℚ) ≤ b) (h : x.value ≤ b) :
    (x.num : ℚ) ≤ b := by
  rcases le_total 0 x.exponent with hexp | hexp
  · have hden : x.den = 1 := by
      rw [den, wholePower, Int.toNat_of_nonpos (by omega), Nat.pow_eq, Nat.pow_zero]
    rwa [← num_div_den, hden, Nat.cast_one, div_one] at h
  · have hnum : x.num = x.mantissa := by
      rw [num, wholePower, Int.toNat_of_nonpos hexp, Nat.pow_eq, Nat.pow_zero, Nat.mul_one]
    rwa [hnum]

/-- The shortest decimal of a double up to `2 ^ 71`, of at most 53 bits, is below `10 ^ 23`. -/
theorem value_shortest_lt {x : Binary64} (hbits : x.mantissa ≤ 2 * leastMantissa)
    (h : x.value ≤ 2 ^ (71 : Int)) : x.shortest.value < 10 ^ (23 : Int) := by
  rw [shortest]
  split
  next => simp [Decimal.value]
  next hx =>
    have hlead := leadingExponent_le_of_value_le hx h
    simp only
    split
    next c e hfind =>
      obtain ⟨e', he', hgrid⟩ := List.exists_of_findSome?_eq_some hfind
      obtain ⟨c', hc', heq⟩ := Option.map_eq_some_iff.mp hgrid
      obtain ⟨rfl, rfl⟩ := Prod.mk.inj heq
      obtain ⟨n, -, rfl⟩ := List.mem_map.mp he'
      have hstep := onGrid?_le hc'
      have hten : (10 : ℚ) ^ (leadingExponent x.num x.den - (n : Int)) ≤ 10 ^ (22 : Int) :=
        zpow_le_zpow_right₀ (by norm_num) (by omega)
      rw [value_stripZeros]
      calc (c' : ℚ) * 10 ^ (leadingExponent x.num x.den - (n : Int))
          ≤ x.value + 10 ^ (leadingExponent x.num x.den - (n : Int)) := hstep
        _ ≤ 2 ^ (71 : Int) + 10 ^ (22 : Int) := add_le_add h hten
        _ < 10 ^ (23 : Int) := by norm_num
    next =>
      have hnum : (x.num : ℚ) ≤ 2 ^ (71 : Int) := by
        refine num_le (le_trans (Nat.cast_le.mpr hbits) ?_) h
        norm_num [leastMantissa]
      rw [Decimal.value, zpow_zero, mul_one]
      exact hnum.trans_lt (by norm_num)

end Binary64

namespace Decimal

/-- The part before the point does not exceed the number. -/
theorem whole_le (d : Decimal) : (d.whole : ℚ) ≤ d.value := by
  have hpower := wholePower_div 10 d.exponent
  rw [Nat.cast_ofNat] at hpower
  calc (d.whole : ℚ) ≤ (d.digits * wholePower 10 d.exponent : Nat) / wholePower 10 (-d.exponent) :=
        Nat.cast_div_le
    _ = d.value := by rw [value, ← hpower, Nat.cast_mul, mul_div_assoc]

end Decimal

end ServiceHealth.Number
