import Mathlib.Algebra.Order.AbsoluteValue.Basic
import ServiceHealth.Json.Numeral
import ServiceHealth.Proofs.Number.Shortest

/-!
# Numbers in range

A numeral denotes a rational number, and it is read as its leading digits, which stay below
`2 ^ 64`, times a power of ten. Digits are left out only behind eighteen others, and the two
factors and their product are rounded once each, so whether a numeral is in range is decided by
the number that it denotes but for a few parts in `2 ^ 53` around the overflow of the format.
The numbers of a report are far below it.

## Main definitions

* `extended` — the number that digits behind those of another denote.
* `Numeral.magnitude`, `Numeral.value` — the number that a numeral denotes, without and with its
  sign.

## Main results

* `Numeral.scaled_le_magnitude`, `Numeral.magnitude_le_scaled` — how much is lost with the digits
  that are left out.
* `Numeral.isFinite_of_magnitude_le`, `Numeral.isFinite_eq_false_of_le_magnitude` — the numerals
  that are in range and those that are not, but for a few numbers at the threshold.
* `Numeral.isFinite_ofNat`, `Numeral.isFinite_ofDouble` — how counts and means are written.
-/

namespace ServiceHealth.Number

/-! ### Digits behind a number -/

/-- The number that some digits behind those of another number denote. -/
def extended (n : Nat) (ds : List Digit) : Nat :=
  ds.foldl (fun (n : Nat) (d : Digit) => n * 10 + d) n

/-- One digit behind a number. -/
theorem extended_cons (n : Nat) (d : Digit) (ds : List Digit) :
    extended n (d :: ds) = extended (n * 10 + d) ds := rfl

/-- Digits behind a number and digits behind these. -/
theorem extended_append (n : Nat) (ds ds' : List Digit) :
    extended n (ds ++ ds') = extended (extended n ds) ds' := List.foldl_append

/-- The digits of a number denote it. -/
theorem extended_zero_digits (n : Nat) : extended 0 ((digits n).1 :: (digits n).2) = n :=
  valueOf_digits n

/-- The first digit of a number and the others behind it denote it. -/
theorem extended_digits (n : Nat) : extended (digits n).1 (digits n).2 = n := by
  have h := extended_zero_digits n
  rwa [extended_cons, Nat.zero_mul, Nat.zero_add] at h

/-- Digits behind a number add less than one unit of it. -/
theorem extended_bounds (n : Nat) (ds : List Digit) :
    n * 10 ^ ds.length ≤ extended n ds ∧ extended n ds < (n + 1) * 10 ^ ds.length := by
  induction ds generalizing n with
  | nil => simp [extended]
  | cons d ds ih =>
    obtain ⟨hlow, hhigh⟩ := ih (n * 10 + d)
    have hd := d.isLt
    rw [extended_cons, List.length_cons, Nat.pow_succ']
    constructor
    · refine le_trans ?_ hlow
      rw [← Nat.mul_assoc]
      gcongr
      omega
    · refine hhigh.trans_le ?_
      rw [← Nat.mul_assoc]
      gcongr
      omega

end ServiceHealth.Number

namespace ServiceHealth.Json

open Number

/-- A power of ten is read back from its exponent. -/
theorem Exponent.value_ofInt (power : Int) : (Exponent.ofInt power).value = power := by
  simp only [value, ofInt, valueOf_digits, Option.some.injEq, decide_eq_true_eq]
  split <;> omega

namespace Numeral

/-! ### The number that a numeral denotes -/

/-- The power of ten that a numeral is written with. -/
def power (n : Numeral) : Int := (n.exponent.map Exponent.value).getD 0

/-- The number that a numeral denotes, without its sign. -/
def magnitude (n : Numeral) : ℚ :=
  extended n.whole n.fraction * 10 ^ (n.power - n.fraction.length)

/-- The number that a numeral denotes. -/
def value (n : Numeral) : ℚ := if n.negative then -n.magnitude else n.magnitude

/-- A number without its sign is not negative. -/
theorem magnitude_nonneg (n : Numeral) : 0 ≤ n.magnitude := by
  rw [magnitude]
  positivity

/-- The sign of a number does not change its size. -/
theorem abs_value (n : Numeral) : |n.value| = n.magnitude := by
  rw [value]
  split
  · rw [abs_neg, abs_of_nonneg n.magnitude_nonneg]
  · rw [abs_of_nonneg n.magnitude_nonneg]

/-! ### The digits that are read -/

/-- Why no digit is left out, or which digit is the first that is: it does not fit any more. -/
def Full (s : Nat) (dropped : List Digit) : Prop :=
  dropped = [] ∨ ∃ (d : Digit) (rest : List Digit), dropped = d :: rest ∧
    UInt64.size ≤ s * 10 + d

/-- The digits that are read are the leading ones, as many as stay below `2 ^ 64`. -/
theorem gather_eq {s : Nat} (hs : s < UInt64.size) (ds : List Digit) :
    ∃ kept dropped, ds = kept ++ dropped ∧ gather s ds = (extended s kept, kept.length) ∧
      extended s kept < UInt64.size ∧
      Full (extended s kept) dropped := by
  induction ds generalizing s with
  | nil => exact ⟨[], [], rfl, rfl, hs, .inl rfl⟩
  | cons d ds ih =>
    by_cases hnext : s * 10 + d < UInt64.size
    · obtain ⟨kept, dropped, rfl, hgather, hbound, hfull⟩ := ih hnext
      refine ⟨d :: kept, dropped, rfl, ?_, hbound, hfull⟩
      rw [gather, if_pos hnext, hgather]
      rfl
    · refine ⟨[], d :: ds, rfl, ?_, hs, .inr ⟨d, ds, rfl, Nat.le_of_not_lt hnext⟩⟩
      rw [gather, if_neg hnext]
      rfl

/-- Digits are left out only behind a number of eighteen digits. -/
theorem Full.le {s : Nat} {dropped : List Digit} (h : Full s dropped) (hne : dropped ≠ []) :
    2 ^ 60 ≤ s := by
  obtain ⟨d, rest, rfl, hsize⟩ := h.resolve_left hne
  have hd := d.isLt
  rw [UInt64.size] at hsize
  omega

/-- Zeros in place of the digits that are left out make the number no greater, also when digits
behind the point were read after some before it were left out. -/
theorem extended_kept_le {s : Nat} {left kept dropped : List Digit} (hleft : Full s left)
    (hsize : extended s kept < UInt64.size) :
    extended s kept * 10 ^ (left.length + dropped.length) ≤
      extended (extended s left) (kept ++ dropped) := by
  rw [extended_append]
  refine le_trans ?_ (extended_bounds _ dropped).1
  rw [Nat.pow_add, ← Nat.mul_assoc]
  gcongr
  rcases hleft with rfl | ⟨d, rest, rfl, hd⟩
  · simp [extended]
  cases kept with
  | nil => exact (extended_bounds s (d :: rest)).1
  | cons c kept =>
    -- The digit that did not fit is greater than whatever was read in its place.
    calc extended s (c :: kept) * 10 ^ (d :: rest).length
        ≤ (s * 10 + d) * 10 ^ (rest.length + 1) := by
          rw [List.length_cons]
          gcongr
          exact hsize.le.trans hd
      _ ≤ extended s (d :: rest) * 10 ^ (kept.length + 1) := by
          rw [extended_cons, Nat.pow_succ', Nat.mul_comm 10, ← Nat.mul_assoc]
          refine Nat.mul_le_mul (extended_bounds _ rest).1 ?_
          exact Nat.le_self_pow (by omega) 10
      _ ≤ extended (extended s (d :: rest)) (c :: kept) := (extended_bounds _ (c :: kept)).1

/-- Behind a number of eighteen digits a unit is one part in `2 ^ 60` at most. -/
theorem unit_le {s unit n : Nat} (hs : 2 ^ 60 ≤ s) (hn : n ≤ (s + 1) * unit) :
    2 ^ 60 * n ≤ (2 ^ 60 + 1) * (s * unit) := by
  calc 2 ^ 60 * n ≤ 2 ^ 60 * ((s + 1) * unit) := by gcongr
    _ = (2 ^ 60 * (s + 1)) * unit := by rw [Nat.mul_assoc]
    _ ≤ ((2 ^ 60 + 1) * s) * unit := Nat.mul_le_mul_right _ (by omega)
    _ = (2 ^ 60 + 1) * (s * unit) := by rw [Nat.mul_assoc]

/-- Zeros in place of the digits that are left out make the number smaller by one part in
`2 ^ 60` at most. -/
theorem extended_le_kept {s : Nat} {left kept dropped : List Digit} (hleft : Full s left)
    (hdropped : Full (extended s kept) dropped) :
    2 ^ 60 * extended (extended s left) (kept ++ dropped) ≤
      (2 ^ 60 + 1) * (extended s kept * 10 ^ (left.length + dropped.length)) := by
  by_cases hnone : left = []
  · subst hnone
    rw [extended_append, List.length_nil, Nat.zero_add]
    by_cases hall : dropped = []
    · subst hall
      rw [List.length_nil, Nat.pow_zero, Nat.mul_one]
      exact Nat.mul_le_mul_right _ (by omega)
    · exact unit_le (hdropped.le hall) (extended_bounds _ dropped).2.le
  · have hbound : extended (extended s left) (kept ++ dropped) ≤
        (s + 1) * (10 ^ left.length * 10 ^ (kept ++ dropped).length) := by
      rw [← Nat.mul_assoc]
      exact (extended_bounds _ _).2.le.trans (Nat.mul_le_mul_right _ (extended_bounds s left).2)
    refine (unit_le (hleft.le hnone) hbound).trans (Nat.mul_le_mul_left _ ?_)
    calc s * (10 ^ left.length * 10 ^ (kept ++ dropped).length)
        = s * 10 ^ kept.length * 10 ^ (left.length + dropped.length) := by
          rw [List.length_append, Nat.pow_add, Nat.pow_add]
          ring
      _ ≤ extended s kept * 10 ^ (left.length + dropped.length) := by
          gcongr
          exact (extended_bounds s kept).1

/-- The leading digits that are read stay below `2 ^ 64`, and with zeros behind them they are the
number of all digits or a little less. -/
theorem exists_scaled (n : Numeral) : n.scaled.1 < UInt64.size ∧
    ∃ k : Nat, n.scaled.2 = k + (n.power - n.fraction.length) ∧
      n.scaled.1 * 10 ^ k ≤ extended n.whole n.fraction ∧
      2 ^ 60 * extended n.whole n.fraction ≤ (2 ^ 60 + 1) * (n.scaled.1 * 10 ^ k) := by
  obtain ⟨whole, left, hwhole, hgather, hsize, hleft⟩ :=
    gather_eq (s := 0) (by decide) ((digits n.whole).1 :: (digits n.whole).2)
  obtain ⟨places, dropped, hplaces, hgather', hsize', hdropped⟩ := gather_eq hsize n.fraction
  have hnumber : extended (extended 0 whole) left = n.whole := by
    rw [← extended_append, ← hwhole, extended_zero_digits]
  have hscaled : n.scaled = (extended (extended 0 whole) places,
      ((whole ++ left).length : Int) - whole.length - places.length + n.power) := by
    rw [scaled]
    simp only [hgather, hgather']
    rw [hwhole, power]
  rw [hscaled, ← hnumber, hplaces]
  refine ⟨hsize', left.length + dropped.length, ?_, extended_kept_le hleft hsize',
    extended_le_kept hleft hdropped⟩
  simp only [List.length_append]
  push_cast
  ring

/-- What is read of a numeral, which is not more than its number. -/
theorem scaled_le_magnitude (n : Numeral) :
    (n.scaled.1 : ℚ) * 10 ^ n.scaled.2 ≤ n.magnitude := by
  obtain ⟨-, k, hk, hlow, -⟩ := n.exists_scaled
  rw [hk, zpow_add₀ (by norm_num), ← mul_assoc, magnitude, zpow_natCast]
  gcongr
  exact_mod_cast hlow

/-- What is read of a numeral, which is not much less than its number. -/
theorem magnitude_le_scaled (n : Numeral) :
    n.magnitude ≤ (1 + 1 / 2 ^ 60) * (n.scaled.1 * 10 ^ n.scaled.2) := by
  obtain ⟨-, k, hk, -, hhigh⟩ := n.exists_scaled
  have hcast : (extended n.whole n.fraction : ℚ) ≤ (1 + 1 / 2 ^ 60) * (n.scaled.1 * 10 ^ k) := by
    have h : (2 : ℚ) ^ 60 * extended n.whole n.fraction ≤
        (2 ^ 60 + 1) * (n.scaled.1 * 10 ^ k) := by exact_mod_cast hhigh
    linarith
  rw [hk, zpow_add₀ (by norm_num), ← mul_assoc, ← mul_assoc, magnitude, zpow_natCast]
  gcongr
  linarith

/-! ### Rounding -/

/-- The number of the leading digits and the power of ten, each rounded, before the product is. -/
theorem product_error (s : Nat) {e : Int} (he : 0 ≤ e) :
    (1 - 1 / 2 ^ 53) ^ 2 * ((s : ℚ) * 10 ^ e) ≤
        (Binary64.ofNat s).value * (Binary64.ofNat (wholePower 10 e)).value ∧
      (Binary64.ofNat s).value * (Binary64.ofNat (wholePower 10 e)).value ≤
        (1 + 1 / 2 ^ 53) ^ 2 * (s * 10 ^ e) := by
  have hpower : ((wholePower 10 e : Nat) : ℚ) = 10 ^ e := by
    rw [wholePower, Nat.pow_eq, Nat.cast_pow, Nat.cast_ofNat, ← zpow_natCast,
      Int.toNat_of_nonneg he]
  obtain ⟨hs, hs'⟩ := Binary64.value_nearest_error s one_ne_zero
  obtain ⟨hp, hp'⟩ := Binary64.value_nearest_error (wholePower 10 e) one_ne_zero
  rw [Nat.cast_one, div_one] at hs hs' hp hp'
  rw [hpower] at hp hp'
  constructor
  · calc (1 - 1 / 2 ^ 53) ^ 2 * ((s : ℚ) * 10 ^ e)
        = ((1 - 1 / 2 ^ 53) * s) * ((1 - 1 / 2 ^ 53) * 10 ^ e) := by ring
      _ ≤ _ := mul_le_mul hs hp (by positivity) (Binary64.value_nonneg _)
  · calc _ ≤ ((1 + 1 / 2 ^ 53) * (s : ℚ)) * ((1 + 1 / 2 ^ 53) * 10 ^ e) :=
          mul_le_mul hs' hp' (Binary64.value_nonneg _) (by positivity)
      _ = (1 + 1 / 2 ^ 53) ^ 2 * (s * 10 ^ e) := by ring

/-- The powers of ten within the range have exponents up to 308. -/
theorem le_of_pow_ten_lt {e : Int} (h : (10 : ℚ) ^ e < 2 ^ (1024 : Int)) : e ≤ 308 := by
  by_contra hlarge
  have hpow : (10 : ℚ) ^ (309 : Int) ≤ 10 ^ e := zpow_le_zpow_right₀ (by norm_num) (by omega)
  have hcompare : (2 : Nat) ^ 1024 ≤ 10 ^ 309 := by decide +kernel
  refine absurd (hpow.trans_lt h) (not_lt.mpr ?_)
  exact_mod_cast hcompare

/-- A numeral up to the third greatest double is in range. -/
theorem isFinite_of_magnitude_le {n : Numeral}
    (h : n.magnitude ≤ (2 ^ 53 - 3) * 2 ^ (971 : Int)) : n.isFinite = true := by
  have hread := n.scaled_le_magnitude.trans h
  rw [isFinite]
  generalize n.scaled = scaled at hread ⊢
  obtain ⟨s, e⟩ := scaled
  simp only [Bool.or_eq_true, Bool.and_eq_true, decide_eq_true_eq]
  rcases Nat.eq_zero_or_pos s with hs | hs
  · exact .inl (.inl hs)
  rcases le_or_gt e 0 with he | he
  · exact .inl (.inr he)
  refine .inr ⟨le_of_pow_ten_lt ?_, Binary64.isFinite_nearest ?_⟩
  · have hone : (1 : ℚ) ≤ s := mod_cast hs
    calc (10 : ℚ) ^ e ≤ s * 10 ^ e := le_mul_of_one_le_left (by positivity) hone
      _ ≤ (2 ^ 53 - 3) * 2 ^ (971 : Int) := hread
      _ ≤ Binary64.greatest := by
        rw [Binary64.greatest]
        gcongr
        norm_num
      _ < 2 ^ (1024 : Int) := Binary64.greatest_lt
  · rw [Binary64.mul_exact]
    calc _ ≤ (1 + 1 / 2 ^ 53) ^ 2 * ((s : ℚ) * 10 ^ e) := (product_error s he.le).2
      _ ≤ (1 + 1 / 2 ^ 53) ^ 2 * ((2 ^ 53 - 3) * 2 ^ (971 : Int)) := by gcongr
      _ ≤ Binary64.greatest := by
        rw [← mul_assoc, Binary64.greatest]
        gcongr
        norm_num

/-- A numeral from four units beyond the doubles on is not in range. -/
theorem isFinite_eq_false_of_le_magnitude {n : Numeral}
    (h : (2 ^ 53 + 4) * 2 ^ (971 : Int) ≤ n.magnitude) : n.isFinite = false := by
  have hread := h.trans n.magnitude_le_scaled
  have hsize : n.scaled.1 < UInt64.size := n.exists_scaled.1
  have hthreshold : (2 : ℚ) ^ (1024 : Int) = 2 ^ 53 * 2 ^ (971 : Int) := by
    rw [← zpow_natCast, ← zpow_add₀ (by norm_num)]
    rfl
  rw [isFinite]
  generalize n.scaled = scaled at hread hsize ⊢
  obtain ⟨s, e⟩ := scaled
  simp only at hread hsize
  have hs : s ≠ 0 := by
    rintro rfl
    have : (0 : ℚ) < (2 ^ 53 + 4) * 2 ^ (971 : Int) := by positivity
    rw [Nat.cast_zero, zero_mul, mul_zero] at hread
    exact absurd hread (not_le.mpr this)
  have he : 0 < e := by
    by_contra hneg
    have hdigits : (s : ℚ) ≤ 2 ^ (64 : Int) := mod_cast hsize.le
    have hpow : (10 : ℚ) ^ e ≤ 1 := zpow_le_one_of_nonpos₀ (by norm_num) (not_lt.mp hneg)
    have hsmall : (2 ^ 53 + 4) * (2 : ℚ) ^ (64 : Int) ≤
        (1 + 1 / 2 ^ 60) * (2 ^ (64 : Int) * 1) := by
      refine le_trans (le_trans ?_ hread) (by gcongr)
      gcongr <;> norm_num
    norm_num at hsmall
  simp only [Bool.or_eq_false_iff, decide_eq_false_iff_not, Bool.and_eq_false_iff]
  refine ⟨⟨hs, not_le.mpr he⟩, .inr (Binary64.isFinite_nearest_eq_false ?_ ?_)⟩
  · exact Nat.mul_ne_zero (Binary64.den_pos _).ne' (Binary64.den_pos _).ne'
  · rw [Binary64.mul_exact]
    refine le_trans ?_ (product_error s he.le).1
    calc (2 : ℚ) ^ (1024 : Int) ≤ (1 - 1 / 2 ^ 53) ^ 2 / (1 + 1 / 2 ^ 60) *
          ((2 ^ 53 + 4) * 2 ^ (971 : Int)) := by
          rw [hthreshold, ← mul_assoc]
          gcongr
          norm_num
      _ ≤ (1 - 1 / 2 ^ 53) ^ 2 / (1 + 1 / 2 ^ 60) *
          ((1 + 1 / 2 ^ 60) * (s * 10 ^ e)) := by gcongr
      _ = (1 - 1 / 2 ^ 53) ^ 2 * (s * 10 ^ e) := by
          rw [← mul_assoc, div_mul_cancel₀ _ (by norm_num)]

/-! ### Counts and means -/

/-- The first hundred powers of two are far below the greatest doubles. -/
theorem pow_hundred_le : (2 : ℚ) ^ (100 : Int) ≤ (2 ^ 53 - 3) * 2 ^ (971 : Int) := by
  calc (2 : ℚ) ^ (100 : Int) ≤ 2 ^ (971 : Int) := zpow_le_zpow_right₀ (by norm_num) (by norm_num)
    _ ≤ (2 ^ 53 - 3) * 2 ^ (971 : Int) := le_mul_of_one_le_left (by positivity) (by norm_num)

/-- A numeral far below the greatest doubles is in range. -/
theorem isFinite_of_magnitude_le_pow {n : Numeral} (h : n.magnitude ≤ 2 ^ (100 : Int)) :
    n.isFinite = true :=
  isFinite_of_magnitude_le (h.trans pow_hundred_le)

/-- A count denotes itself. -/
theorem magnitude_ofNat (n : Nat) : (ofNat n).magnitude = n := by
  simp [magnitude, ofNat, power, extended]

/-- A count is in range. -/
theorem isFinite_ofNat {n : Nat} (h : n < UInt64.size) : (ofNat n).isFinite = true := by
  refine isFinite_of_magnitude_le_pow ?_
  have hcast : (n : ℚ) ≤ 2 ^ (64 : Int) := mod_cast h.le
  rw [magnitude_ofNat]
  exact hcast.trans (zpow_le_zpow_right₀ (by norm_num) (by norm_num))

/-- A double is written with no more than the digits of its shortest decimal. -/
theorem magnitude_ofDouble_le (x : Binary64) : (ofDouble x).magnitude ≤ x.shortest.value + 1 := by
  rw [ofDouble]
  generalize x.shortest = d
  split
  next =>
    have hvalue : extended (digits d.digits).1 (digits d.digits).2 *
        (10 : ℚ) ^ (d.leadingPower - (digits d.digits).2.length) = d.value := by
      rw [extended_digits, Decimal.leadingPower, add_sub_cancel_left, Decimal.value]
    simp only [magnitude, power, Option.map_some, Option.getD_some, Exponent.value_ofInt, hvalue]
    linarith
  next =>
    simp only [magnitude, power, Option.map_none, Option.getD_none, zero_sub]
    generalize (if d.places = [] then [0] else d.places) = places
    have hbound : (extended d.whole places : ℚ) ≤ (d.whole + 1) * 10 ^ places.length := by
      exact_mod_cast (extended_bounds d.whole places).2.le
    calc (extended d.whole places : ℚ) * 10 ^ (-places.length : Int)
        ≤ (d.whole + 1) * 10 ^ places.length * 10 ^ (-places.length : Int) := by gcongr
      _ = d.whole + 1 := by
        rw [mul_assoc, zpow_neg, zpow_natCast, mul_inv_cancel₀ (by positivity), mul_one]
      _ ≤ d.value + 1 := by
        gcongr
        exact d.whole_le

/-- A mean up to `2 ^ 71`, of at most 53 bits, is in range. -/
theorem isFinite_ofDouble {x : Binary64} (hbits : x.mantissa ≤ 2 * Binary64.leastMantissa)
    (h : x.value ≤ 2 ^ (71 : Int)) : (ofDouble x).isFinite = true := by
  have hshortest := Binary64.value_shortest_lt hbits h
  refine isFinite_of_magnitude_le_pow ((magnitude_ofDouble_le x).trans ?_)
  calc x.shortest.value + 1 ≤ 10 ^ (23 : Int) + 1 := by gcongr
    _ ≤ 2 ^ (100 : Int) := by norm_num

end Numeral

end ServiceHealth.Json
