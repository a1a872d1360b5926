import Mathlib.Tactic.IntervalCases
import ServiceHealth.Proofs.Number.Nearest
import ServiceHealth.Proofs.Number.Shortest

/-!
# Shortest decimals read back

The search for the shortest decimal of a double asks on each grid whether one of the two neighbours
of the double is a number that the double takes in. A grid with seventeen digits is so fine that one
of them always is, so the search succeeds, and its decimal reads back as the double. A number that
is taken in and lies on a grid wider than the unit of the double is the only one there, so it is the
one that is found.

## Main results

* `Binary64.covers_iff` — the test of a decimal is the question whether the double takes it in.
* `Binary64.isSome_onGrid?_of_takesIn`, `Binary64.isSome_onGrid?_of_fine` — the grids on which the
  search succeeds.
* `Binary64.takesIn_value_shortest` — the shortest decimal reads back.
* `Binary64.value_shortest_eq` — the decimal that is found.
-/

namespace ServiceHealth.Number.Binary64

variable {x : Binary64}

/-! ### What the test says -/

/-- The interval of a double in terms of the way down to its neighbour. -/
theorem interval_eq (x : Binary64) : x.interval =
    (x.num * 4 - x.quartersBelow * wholePower 2 x.exponent, x.num * 4,
      x.num * 4 + 2 * wholePower 2 x.exponent, x.den * 4) := rfl

/-- The scale on which the test is made: a quarter of the unit of the double, in parts of the
grid. -/
def testScale (x : Binary64) (e : Int) : ℚ := 4 * (wholePower 2 x.exponent * wholePower 10 (-e))

/-- The scale of a test is positive. -/
theorem testScale_pos (x : Binary64) (e : Int) : 0 < x.testScale e := by
  have hunit := wholePower_pos two_ne_zero x.exponent
  have hgrid := wholePower_pos (by decide : 10 ≠ 0) (-e)
  rw [testScale]
  positivity

/-- The lower end of the test on its scale. -/
theorem cast_low (hx : x.IsNormal) (e : Int) :
    (((x.num * 4 - x.quartersBelow * wholePower 2 x.exponent) * wholePower 10 (-e) : Nat) : ℚ) =
      (x.mantissa - x.quartersBelow / 4) * x.testScale e := by
  have hquarters : x.quartersBelow ≤ x.mantissa * 4 := by
    have hleast : 0 < x.mantissa := Nat.lt_of_lt_of_le (by decide) hx.1
    rw [quartersBelow]
    split <;> omega
  have hle : x.quartersBelow * wholePower 2 x.exponent ≤ x.num * 4 := by
    rw [num, Nat.mul_right_comm]
    exact Nat.mul_le_mul_right _ hquarters
  rw [Nat.cast_mul, Nat.cast_sub hle, num, testScale]
  push_cast
  ring

/-- The upper end of the test on its scale. -/
theorem cast_high (x : Binary64) (e : Int) :
    (((x.num * 4 + 2 * wholePower 2 x.exponent) * wholePower 10 (-e) : Nat) : ℚ) =
      (x.mantissa + 1 / 2) * x.testScale e := by
  rw [num, testScale]
  push_cast
  ring

/-- The decimal of the test on its scale. -/
theorem cast_scaled (x : Binary64) (c : Nat) (e : Int) :
    ((c * wholePower 10 e * (x.den * 4) : Nat) : ℚ) =
      c * 10 ^ e / 2 ^ x.exponent * x.testScale e := by
  have hten := wholePower_div 10 e
  have htwo := wholePower_div 2 x.exponent
  have hden : (0 : ℚ) < wholePower 2 (-x.exponent) := by
    exact_mod_cast wholePower_pos two_ne_zero _
  have hunit : (0 : ℚ) < wholePower 2 x.exponent := by
    exact_mod_cast wholePower_pos two_ne_zero _
  have hgrid : (0 : ℚ) < wholePower 10 (-e) := by
    exact_mod_cast wholePower_pos (by decide) _
  rw [Nat.cast_ofNat] at hten htwo
  rw [← hten, ← htwo, den, testScale]
  push_cast
  field_simp

/-- The test of a decimal on a grid is the question whether the double takes it in. -/
theorem covers_iff (hx : x.IsNormal) (c : Nat) (e : Int) :
    x.covers c e = true ↔ x.TakesIn (c * 10 ^ e) := by
  have hscale := x.testScale_pos e
  rw [covers, TakesIn, interval_eq]
  dsimp only
  split
  · rw [Bool.and_eq_true, decide_eq_true_eq, decide_eq_true_eq, ← Nat.cast_le (α := ℚ),
      ← Nat.cast_le (α := ℚ), cast_low hx, cast_high, cast_scaled, mul_le_mul_iff_left₀ hscale,
      mul_le_mul_iff_left₀ hscale]
  · rw [Bool.and_eq_true, decide_eq_true_eq, decide_eq_true_eq, ← Nat.cast_lt (α := ℚ),
      ← Nat.cast_lt (α := ℚ), cast_low hx, cast_high, cast_scaled, mul_lt_mul_iff_left₀ hscale,
      mul_lt_mul_iff_left₀ hscale]

/-! ### The grids on which the search succeeds -/

/-- A double lies between its two neighbours on a grid. -/
theorem grid_bounds (x : Binary64) (e : Int) {down : Nat}
    (hdown : down = x.num * wholePower 10 (-e) / (x.den * wholePower 10 e)) :
    (down : ℚ) * 10 ^ e ≤ x.value ∧ x.value < (down + 1) * 10 ^ e := by
  have hpos : 0 < x.den * wholePower 10 e := Nat.mul_pos x.den_pos (wholePower_pos (by decide) e)
  have hscaled := scaled_div x.num x.den (by decide : 10 ≠ 0) e
  rw [num_div_den, Nat.cast_ofNat] at hscaled
  have hten : (0 : ℚ) < 10 ^ e := by positivity
  rw [← le_div_iff₀ hten, ← div_lt_iff₀ hten, ← hscaled]
  constructor
  · rw [hdown]
    exact Nat.cast_div_le
  · rw [div_lt_iff₀ (by exact_mod_cast hpos)]
    have := Nat.lt_div_mul_add hpos (a := x.num * wholePower 10 (-e))
    rw [← hdown] at this
    rw [add_mul, one_mul]
    exact_mod_cast this

/-- What the search finds on a grid is a positive number that the double takes in. -/
theorem takesIn_of_onGrid? (hx : x.IsNormal) {e : Int} {c : Nat} (h : x.onGrid? e = some c) :
    x.TakesIn (c * 10 ^ e) ∧ c ≠ 0 := by
  rw [← covers_iff hx]
  rw [onGrid?] at h
  set down := x.num * wholePower 10 (-e) / (x.den * wholePower 10 e) with hdown
  split at h
  next hboth hup =>
    rw [Bool.and_eq_true, decide_eq_true_eq] at hboth
    have hround : roundQuotient (x.num * wholePower 10 (-e)) (x.den * wholePower 10 e) = down ∨
        roundQuotient (x.num * wholePower 10 (-e)) (x.den * wholePower 10 e) = down + 1 := by
      rw [roundQuotient, ← hdown]
      split_ifs <;> simp
    obtain rfl := Option.some.inj h
    rcases hround with hround | hround <;> rw [hround]
    · exact hboth
    · exact ⟨hup, Nat.succ_ne_zero down⟩
  next hboth _ =>
    rw [Bool.and_eq_true, decide_eq_true_eq] at hboth
    obtain rfl := Option.some.inj h
    exact hboth
  next hup =>
    obtain rfl := Option.some.inj h
    exact ⟨hup, Nat.succ_ne_zero down⟩
  next => cases h

/-- The search succeeds on a grid with a neighbour that the double takes in. -/
theorem isSome_onGrid? (hx : x.IsNormal) {e : Int} {down : Nat}
    (hdown : down = x.num * wholePower 10 (-e) / (x.den * wholePower 10 e))
    (h : (x.TakesIn (down * 10 ^ e) ∧ down ≠ 0) ∨ x.TakesIn ((down + 1 : Nat) * 10 ^ e)) :
    (x.onGrid? e).isSome = true := by
  rw [← covers_iff hx, ← covers_iff hx] at h
  rw [onGrid?, ← hdown]
  rcases h with ⟨hcovers, hpos⟩ | hcovers
  · rw [hcovers, Bool.true_and, decide_eq_true hpos]
    cases x.covers (down + 1) e <;> rfl
  · rw [hcovers]
    cases x.covers down e && decide (down ≠ 0) <;> rfl

/-- The search succeeds on a grid with any positive number that the double takes in: the neighbour
on the same side is nearer. -/
theorem isSome_onGrid?_of_takesIn (hx : x.IsNormal) {c : Nat} {e : Int} (hc : c ≠ 0)
    (h : x.TakesIn (c * 10 ^ e)) : (x.onGrid? e).isSome = true := by
  obtain ⟨down, hdown⟩ : ∃ down, down = x.num * wholePower 10 (-e) / (x.den * wholePower 10 e) :=
    ⟨_, rfl⟩
  obtain ⟨hlow, hhigh⟩ := grid_bounds x e hdown
  refine isSome_onGrid? hx hdown ?_
  rcases Nat.lt_or_ge down c with hlt | hge
  · refine .inr (x.takesIn_value.between h ?_ ?_)
    · exact_mod_cast hhigh.le
    · gcongr
      omega
  · refine .inl ⟨h.between x.takesIn_value ?_ hlow, by omega⟩
    gcongr

/-- Of two numbers around a double that are one part in `10 ^ 16` of it apart, the double takes one
in. They are less than a unit apart, and less than half a unit at a power of two, where the lower
neighbour is nearer. -/
theorem takesIn_or_of_close (hx : x.IsNormal) {a b : ℚ} (ha : a ≤ x.value) (hb : x.value < b)
    (hclose : 10 ^ 16 * (b - a) ≤ x.value) : (x.TakesIn a ∧ 0 < a) ∨ x.TakesIn b := by
  have hunit : (0 : ℚ) < 2 ^ x.exponent := by positivity
  have hmost : (x.mantissa : ℚ) < 2 ^ 53 := by exact_mod_cast hx.2
  have hvalue : x.value / 2 ^ x.exponent = x.mantissa := mul_div_cancel_right₀ _ hunit.ne'
  have hbelow : a / 2 ^ x.exponent ≤ x.mantissa := by
    rw [← hvalue]
    gcongr
  have habove : x.mantissa < b / 2 ^ x.exponent := by
    rw [← hvalue]
    gcongr
  have hsmall : 10 ^ 16 * (b / 2 ^ x.exponent - a / 2 ^ x.exponent) ≤ x.mantissa := by
    rw [← hvalue, ← sub_div, ← mul_div_assoc]
    gcongr
  by_cases hup : b / 2 ^ x.exponent < x.mantissa + 1 / 2
  · right
    have hquarters : (0 : ℚ) ≤ x.quartersBelow / 4 := by positivity
    rw [TakesIn]
    split <;> constructor <;> linarith
  · left
    have hquarters : (x.quartersBelow : ℚ) = 2 := by
      rw [quartersBelow, if_neg, Nat.cast_ofNat]
      intro heq
      have : (x.mantissa : ℚ) = 2 ^ 52 := by
        rw [heq]
        norm_num [leastMantissa]
      linarith
    constructor
    · rw [TakesIn, hquarters]
      split <;> constructor <;> linarith
    · linarith [hx.value_pos]

/-- The search succeeds on a grid with seventeen digits. -/
theorem isSome_onGrid?_of_fine (hx : x.IsNormal) {e : Int}
    (hfine : 10 ^ 16 * (10 : ℚ) ^ e ≤ x.value) : (x.onGrid? e).isSome = true := by
  obtain ⟨down, hdown⟩ : ∃ down, down = x.num * wholePower 10 (-e) / (x.den * wholePower 10 e) :=
    ⟨_, rfl⟩
  obtain ⟨hlow, hhigh⟩ := grid_bounds x e hdown
  have hclose : 10 ^ 16 * ((down + 1) * 10 ^ e - down * (10 : ℚ) ^ e) ≤ x.value := by
    rwa [add_mul, one_mul, add_sub_cancel_left]
  refine isSome_onGrid? hx hdown ((takesIn_or_of_close hx hlow hhigh hclose).imp ?_ ?_)
  · rintro ⟨htakes, hpos⟩
    refine ⟨htakes, ?_⟩
    rintro rfl
    simp at hpos
  · intro htakes
    rwa [Nat.cast_add_one]

/-! ### The leading digit -/

/-- The estimate of the leading digit is at most two places too low for numbers around one. -/
theorem estimate_bounds {l : Int} (hlow : -10 ≤ l) (hhigh : l ≤ 44) :
    (10 : ℚ) ^ (l * 30103 / 100000 - 1) ≤ 2 ^ (l - 1) ∧
      (2 : ℚ) ^ (l + 1) ≤ 10 ^ (l * 30103 / 100000 - 1 + 3) := by
  interval_cases l <;> norm_num

/-- The leading digit of a quotient between `2 ^ -10` and `2 ^ 43` is at the place of the largest
power of ten that the quotient reaches. -/
theorem leadingExponent_bounds {num den : Nat} (hnum : num ≠ 0) (hden : den ≠ 0)
    (hlow : (2 : ℚ) ^ (-10 : Int) ≤ num / den) (hhigh : (num : ℚ) / den < 2 ^ (44 : Int)) :
    (10 : ℚ) ^ leadingExponent num den ≤ num / den ∧
      (num : ℚ) / den < 10 ^ (leadingExponent num den + 1) := by
  obtain ⟨hbelow, habove⟩ := div_log2_bounds hnum hden
  have hl := lt_of_pow_lt (hlow.trans_lt habove)
  have hl' := lt_of_pow_lt (hbelow.trans_lt hhigh)
  have hlog : -10 ≤ (num.log2 : Int) - den.log2 := by omega
  have hlog' : (num.log2 : Int) - den.log2 ≤ 44 := by omega
  obtain ⟨hguess, hguess'⟩ := estimate_bounds hlog hlog'
  set guess : Int := ((num.log2 : Int) - den.log2) * 30103 / 100000 - 1 with hset
  have hreach : ∀ k : Int, den * wholePower 10 k ≤ num * wholePower 10 (-k) ↔
      (10 : ℚ) ^ k ≤ num / den := by
    intro k
    have hten := wholePower_div 10 k
    have hpos : (0 : ℚ) < wholePower 10 (-k) := by exact_mod_cast wholePower_pos (by decide) _
    rw [Nat.cast_ofNat] at hten
    rw [← hten, div_le_div_iff₀ hpos (by positivity), ← Nat.cast_le (α := ℚ)]
    push_cast
    rw [mul_comm (den : ℚ)]
  rw [leadingExponent]
  simp only [← hset, hreach, decide_eq_true_eq]
  split_ifs with h2 h1
  · refine ⟨h2, ?_⟩
    rw [add_assoc]
    exact habove.trans_le hguess'
  · refine ⟨h1, ?_⟩
    rw [add_assoc]
    exact not_le.mp h2
  · exact ⟨hguess.trans hbelow, not_le.mp h1⟩

/-! ### Zeros at the end -/

/-- Zeros only move up the exponent. -/
theorem le_exponent_stripZeros (fuel c : Nat) (e : Int) : e ≤ (stripZeros fuel c e).exponent := by
  induction fuel generalizing c e with
  | zero => exact le_rfl
  | succ fuel ih =>
    rw [stripZeros]
    split
    next => exact le_trans (by omega) (ih (c / 10) (e + 1))
    next => exact le_rfl

/-- Of a positive number all zeros at the end are moved, or as many as there is fuel. -/
theorem digits_stripZeros_or {c : Nat} (hc : c ≠ 0) (fuel : Nat) (e : Int) :
    (stripZeros fuel c e).digits % 10 ≠ 0 ∨ e + fuel ≤ (stripZeros fuel c e).exponent := by
  induction fuel generalizing c e with
  | zero => exact .inr (by simp [stripZeros])
  | succ fuel ih =>
    rw [stripZeros]
    split
    next h =>
      rcases ih (c := c / 10) (by omega) (e + 1) with hlast | hexp
      · exact .inl hlast
      · exact .inr (by push_cast; omega)
    next h => exact .inl (by simpa [hc] using h)

/-- Of a number with no more digits than there is fuel all zeros at the end are moved. -/
theorem digits_stripZeros {c fuel : Nat} (hc : c ≠ 0) (hfuel : c < 10 ^ fuel) (e : Int) :
    (stripZeros fuel c e).digits % 10 ≠ 0 := by
  refine (digits_stripZeros_or hc fuel e).resolve_right fun hexp => ?_
  have hvalue := value_stripZeros fuel c e
  have hpos : (0 : ℚ) < c * 10 ^ e := by positivity
  have hdigits : (1 : ℚ) ≤ (stripZeros fuel c e).digits := by
    rw [Nat.one_le_cast, Nat.one_le_iff_ne_zero]
    intro hzero
    rw [Decimal.value, hzero, Nat.cast_zero, zero_mul] at hvalue
    exact hpos.ne hvalue
  have hten : (10 : ℚ) ^ fuel * 10 ^ e ≤ c * 10 ^ e := by
    calc (10 : ℚ) ^ fuel * 10 ^ e = 10 ^ (e + fuel) := by
          rw [zpow_add₀ (by norm_num), zpow_natCast, mul_comm]
      _ ≤ 10 ^ (stripZeros fuel c e).exponent := zpow_le_zpow_right₀ (by norm_num) hexp
      _ ≤ (stripZeros fuel c e).value := le_mul_of_one_le_left (by positivity) hdigits
      _ = c * 10 ^ e := hvalue
  have hle : (10 : ℚ) ^ fuel ≤ c := le_of_mul_le_mul_right hten (by positivity)
  exact absurd (by exact_mod_cast hle : 10 ^ fuel ≤ c) (by omega)

/-! ### The decimal that is found -/

/-- The search ends on the coarsest grid on which it succeeds. -/
theorem shortest_eq_of_isSome (hx : x.IsNormal) {e : Int} (hhit : (x.onGrid? e).isSome = true)
    (htop : e ≤ leadingExponent x.num x.den) (hbottom : leadingExponent x.num x.den - 16 ≤ e) :
    ∃ c e', x.onGrid? e' = some c ∧ e ≤ e' ∧ leadingExponent x.num x.den - 16 ≤ e' ∧
      x.shortest = stripZeros 20 c e' := by
  have hmantissa : x.mantissa ≠ 0 := by
    have hleast := hx.1
    rw [leastMantissa] at hleast
    omega
  rw [shortest, if_neg hmantissa]
  dsimp only
  set top := leadingExponent x.num x.den with htop'
  set grids := (List.range 17).map fun (n : Nat) => top - n with hgrids
  have hmem : e ∈ grids := List.mem_map.mpr ⟨(top - e).toNat, by simp; omega, by omega⟩
  have hdescending : grids.Pairwise (· > ·) := by
    rw [hgrids, List.pairwise_map]
    exact List.pairwise_lt_range.imp fun h => by omega
  obtain ⟨c, hc⟩ := Option.isSome_iff_exists.mp hhit
  cases hfind : grids.findSome? fun e => (x.onGrid? e).map (·, e) with
  | none =>
    rw [List.findSome?_eq_none_iff] at hfind
    have := hfind e hmem
    rw [hc] at this
    cases this
  | some found =>
    obtain ⟨before, e', after, hsplit, hfound, hnone⟩ := List.findSome?_eq_some_iff.mp hfind
    obtain ⟨c', hc', rfl⟩ := Option.map_eq_some_iff.mp hfound
    refine ⟨c', e', hc', ?_, ?_, rfl⟩
    · rw [hsplit, List.mem_append, List.mem_cons] at hmem
      rw [hsplit, List.pairwise_append, List.pairwise_cons] at hdescending
      rcases hmem with hbefore | rfl | hafter
      · have := hnone e hbefore
        rw [hc] at this
        cases this
      · exact le_rfl
      · exact (hdescending.2.1.1 e hafter).le
    · have hmem' : e' ∈ grids := by simp [hsplit]
      obtain ⟨n, hn, rfl⟩ := List.mem_map.mp hmem'
      have := List.mem_range.mp hn
      omega

/-- A double in a range around one, in which the leading digit is found. -/
structure IsModerate (x : Binary64) : Prop where
  normal : x.IsNormal
  low : 2 ^ (-10 : Int) ≤ x.value
  high : x.value < 2 ^ (44 : Int)

/-- The leading digit of a moderate double. -/
theorem IsModerate.leading_bounds (hx : x.IsModerate) :
    (10 : ℚ) ^ leadingExponent x.num x.den ≤ x.value ∧
      x.value < 10 ^ (leadingExponent x.num x.den + 1) := by
  have h := leadingExponent_bounds (num_ne_zero hx.normal.value_pos) x.den_pos.ne'
    (by rw [num_div_den]; exact hx.low) (by rw [num_div_den]; exact hx.high)
  rwa [num_div_den] at h

/-- What the search for the shortest decimal ends with: a number that the double takes in. -/
theorem IsModerate.shortest_eq (hx : x.IsModerate) : ∃ (c : Nat) (e : Int),
    x.TakesIn (c * 10 ^ e) ∧ c ≠ 0 ∧ leadingExponent x.num x.den - 16 ≤ e ∧
      x.shortest = stripZeros 20 c e := by
  have hfine : 10 ^ 16 * (10 : ℚ) ^ (leadingExponent x.num x.den - 16) ≤ x.value := by
    refine le_trans (le_of_eq ?_) hx.leading_bounds.1
    rw [zpow_sub₀ (by norm_num)]
    field_simp
  obtain ⟨c, e, hc, -, hbottom, heq⟩ := shortest_eq_of_isSome hx.normal
    (isSome_onGrid?_of_fine hx.normal hfine) (by omega) le_rfl
  obtain ⟨htakes, hpos⟩ := takesIn_of_onGrid? hx.normal hc
  exact ⟨c, e, htakes, hpos, hbottom, heq⟩

/-- The shortest decimal of a double reads back. -/
theorem takesIn_value_shortest (hx : x.IsModerate) : x.TakesIn x.shortest.value := by
  obtain ⟨c, e, htakes, -, -, heq⟩ := hx.shortest_eq
  rwa [heq, value_stripZeros]

/-- The unit of a double is not larger than the double. -/
theorem IsNormal.unit_le (hx : x.IsNormal) : (2 : ℚ) ^ x.exponent ≤ x.value := by
  have hmantissa : 1 ≤ x.mantissa := le_trans (by decide) hx.1
  exact le_mul_of_one_le_left (by positivity) (by exact_mod_cast hmantissa)

/-- The shortest decimal of a double has no zero at its end. -/
theorem digits_shortest (hx : x.IsModerate) : x.shortest.digits % 10 ≠ 0 := by
  obtain ⟨c, e, htakes, hpos, hbottom, heq⟩ := hx.shortest_eq
  rw [heq]
  refine digits_stripZeros hpos ?_ e
  have hten : (0 : ℚ) < 10 ^ e := by positivity
  have hclose := (abs_le.mp htakes.abs_sub_le).2
  have hunit := hx.normal.unit_le
  have hnonneg := x.value_nonneg
  have hvalue : x.value < 10 ^ 17 * 10 ^ e := by
    refine hx.leading_bounds.2.trans_le ?_
    rw [← zpow_natCast, ← zpow_add₀ (by norm_num)]
    exact zpow_le_zpow_right₀ (by norm_num) (by push_cast; omega)
  have hdigits : (c : ℚ) < 10 ^ 20 := by
    refine lt_of_mul_lt_mul_right ?_ hten.le
    calc (c : ℚ) * 10 ^ e ≤ 2 * x.value := by linarith
      _ ≤ 2 * (10 ^ 17 * 10 ^ e) := by gcongr
      _ < 10 ^ 20 * 10 ^ e := by
        rw [← mul_assoc]
        gcongr
        norm_num
  exact_mod_cast hdigits

/-- A double takes in one number of a grid that is wider than its unit. -/
theorem TakesIn.eq_of_wide {a b : Nat} {e : Int} (ha : x.TakesIn (a * 10 ^ e))
    (hb : x.TakesIn (b * 10 ^ e)) (hwide : (2 : ℚ) ^ x.exponent < 10 ^ e) : a = b := by
  have hten : (0 : ℚ) < 10 ^ e := by positivity
  have ha' := abs_le.mp ha.abs_sub_le
  have hb' := abs_le.mp hb.abs_sub_le
  refine eq_of_abs_sub_lt_one (lt_of_mul_lt_mul_right ?_ hten.le)
  rw [← abs_of_pos hten, ← abs_mul, abs_of_pos hten, sub_mul, one_mul, abs_lt]
  constructor <;> linarith

/-- A number on a grid that is wider than the unit of a double, and that the double takes in, is the
number of its shortest decimal: no coarser grid has another such number. -/
theorem value_shortest_eq (hx : x.IsModerate) {c : Nat} {e : Int} (hc : c ≠ 0)
    (h : x.TakesIn (c * 10 ^ e)) (hwide : (2 : ℚ) ^ x.exponent < 10 ^ e)
    (hlow : (10 : ℚ) ^ e ≤ x.value) (hhigh : x.value < 10 ^ (e + 17)) :
    x.shortest.value = c * 10 ^ e := by
  obtain ⟨hlead, hlead'⟩ := hx.leading_bounds
  have htop := (zpow_lt_zpow_iff_right₀ (by norm_num : (1 : ℚ) < 10)).mp (hlow.trans_lt hlead')
  have hbottom := (zpow_lt_zpow_iff_right₀ (by norm_num : (1 : ℚ) < 10)).mp (hlead.trans_lt hhigh)
  obtain ⟨c', e', hfound, hle, -, heq⟩ := shortest_eq_of_isSome hx.normal
    (isSome_onGrid?_of_takesIn hx.normal hc h) (by omega) (by omega)
  obtain ⟨n, hn⟩ := Int.le.dest hle
  have hgrid : (c' : ℚ) * 10 ^ e' = (c' * 10 ^ n : Nat) * 10 ^ e := by
    rw [← hn, zpow_add₀ (by norm_num), zpow_natCast]
    push_cast
    ring
  have htakes := (takesIn_of_onGrid? hx.normal hfound).1
  rw [heq, value_stripZeros, hgrid]
  rw [hgrid] at htakes
  rw [htakes.eq_of_wide h hwide]

end ServiceHealth.Number.Binary64
