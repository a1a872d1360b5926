import Mathlib.Data.Nat.Prime.Basic
import ServiceHealth.Proofs.Number.Nearest
import ServiceHealth.Proofs.Report

/-!
# The mean of durations

The mean of a report is the exact mean in hundredths, a tie going to the even one, as far as the
operations before that rounding leave it: the quotient and its hundredfold are rounded to doubles,
which moves the hundredfold by two parts in `2 ^ 53`. As long as the durations stay below some
centuries this is less than the distance of the hundredfold from every midpoint that it is not on,
since that distance is a fraction over the number of members. So the mean is right unless the exact
mean is a midpoint between two hundredths. All reports on one midpoint share their rounded mean, and
whether it is right is a matter of the midpoint alone: the double nearest to a midpoint may lie
below it or above it, and a hundred times this double on the same side still.

## Main definitions

* `Binary64.hundredths` — the number of hundredths that a mean is rounded to.
* `Binary64.KeepsMidpoint` — a midpoint whose double is rounded to the even neighbour.

## Main results

* `Binary64.hundredfold_error` — how far the hundredfold of a mean is off.
* `Binary64.hundredths_eq`, `Binary64.hundredths_eq_iff_of_midpoint` — means away from midpoints and
  on them.
* `ApplicationReport.averageDurationMs_of_total` — the mean and the exact mean.
-/

namespace ServiceHealth

open Number

namespace Number.Binary64

/-! ### The hundredfold -/

/-- The number of hundredths that a mean is rounded to. -/
def hundredths (x : Binary64) : Nat := (x * ofNat 100).roundToInteger

/-- A hundred times a double, off by one part in `2 ^ 53` at most. -/
theorem value_hundredfold_error (x : Binary64) :
    (1 - 1 / 2 ^ 53) * (x.value * 100) ≤ (x * ofNat 100).value ∧
      (x * ofNat 100).value ≤ (1 + 1 / 2 ^ 53) * (x.value * 100) := by
  have h := value_mul_error x (ofNat 100)
  rwa [value_ofNat (by decide), Nat.cast_ofNat] at h

variable {t n : Nat}

/-- The hundredfold of the double nearest to a quotient is off by less than half a step of its
denominator, for numerators in range. -/
theorem hundredfold_error (hn : n ≠ 0) (ht : 200 * t < 2 ^ 52) :
    |(nearest t n * ofNat 100).value - 100 * t / n| < 1 / (2 * n) := by
  have hpos : (0 : ℚ) < n := by positivity
  have hbound : (200 : ℚ) * t ≤ 2 ^ 52 - 1 := by
    have : 200 * t + 1 ≤ 2 ^ 52 := ht
    rw [le_sub_iff_add_le]
    exact_mod_cast this
  obtain ⟨hlow, hhigh⟩ := value_hundredfold_error (nearest t n)
  obtain ⟨hlow', hhigh'⟩ := value_nearest_error t hn
  obtain ⟨q, hq⟩ : ∃ q : ℚ, q = t / n := ⟨_, rfl⟩
  have hqn : q * n = t := by rw [hq, div_mul_cancel₀ _ hpos.ne']
  rw [mul_div_assoc, ← hq]
  rw [← hq] at hlow' hhigh'
  -- Two roundings, each of one part in `2 ^ 53`.
  have hoff : |(nearest t n * ofNat 100).value - 100 * q| ≤
      100 * q * (1 / 2 ^ 52 + 1 / 2 ^ 106) := by
    rw [abs_le]
    constructor <;> linarith
  refine hoff.trans_lt ?_
  rw [lt_div_iff₀ (by positivity)]
  calc 100 * q * (1 / 2 ^ 52 + 1 / 2 ^ 106) * (2 * (n : ℚ))
      = 200 * (q * n) * (1 / 2 ^ 52 + 1 / 2 ^ 106) := by ring
    _ = 200 * (t : ℚ) * (1 / 2 ^ 52 + 1 / 2 ^ 106) := by rw [hqn]
    _ ≤ (2 ^ 52 - 1) * (1 / 2 ^ 52 + 1 / 2 ^ 106) := by gcongr
    _ < 1 := by norm_num

/-- Hundredths in range are no more than the least mantissa. -/
theorem hundredths_le (hn : n ≠ 0) (ht : 200 * t < 2 ^ 52) :
    (nearest t n).hundredths ≤ leastMantissa := by
  have hoff := abs_lt.mp (hundredfold_error hn ht)
  have hone : (1 : ℚ) ≤ n := by exact_mod_cast Nat.one_le_iff_ne_zero.mpr hn
  have hbound : (200 : ℚ) * t ≤ 2 ^ 52 := by exact_mod_cast ht.le
  have hquotient : 100 * (t : ℚ) / n ≤ 100 * t := div_le_self (by positivity) hone
  have hhalf : 1 / (2 * (n : ℚ)) ≤ 1 / 2 := by
    gcongr
    linarith
  refine roundToInteger_le ?_
  norm_num [leastMantissa]
  linarith

/-- Different numbers of hundredths have different doubles. -/
theorem nearest_hundredths_inj {a b : Nat} (ha : a ≤ leastMantissa) (hb : b < leastMantissa)
    (h : nearest a 100 = nearest b 100) : a = b := by
  obtain ⟨hlow, hhigh⟩ := value_nearest_error a (by decide : 100 ≠ 0)
  obtain ⟨hlow', hhigh'⟩ := value_nearest_error b (by decide : 100 ≠ 0)
  rw [h] at hlow hhigh
  have ha' : (a : ℚ) ≤ 2 ^ 52 := by exact_mod_cast ha
  have hb' : (b : ℚ) < 2 ^ 52 := by exact_mod_cast hb
  refine eq_of_abs_sub_lt_one ?_
  push_cast at *
  rw [abs_lt]
  constructor <;> linarith

/-! ### Midpoints -/

/-- The midpoint between `k` and `k + 1` hundredths is kept: a hundred times the double nearest to
it is rounded to the even one of the two. -/
def KeepsMidpoint (k : Nat) : Prop :=
  (nearest (2 * k + 1) 200).hundredths = roundQuotient (2 * k + 1) 2

instance (k : Nat) : Decidable (KeepsMidpoint k) := inferInstanceAs (Decidable (_ = _))

/-- A midpoint that is a multiple of an eighth is a double itself, and is kept. -/
theorem keepsMidpoint_of_eighths {k j : Nat} (h : 2 * k + 1 = 25 * j)
    (hk : 2 * k + 1 ≤ 2 * leastMantissa) : KeepsMidpoint k := by
  have hj : j ≤ 2 * leastMantissa := by omega
  have hcast : (2 * k + 1 : ℚ) = 25 * j := by exact_mod_cast h
  have hmean : (nearest (2 * k + 1) 200).value = j * 2 ^ (-3 : Int) := by
    refine value_nearest_of_fits (by decide) hj ?_
    push_cast
    rw [hcast]
    norm_num
    ring
  have hproduct : (nearest (2 * k + 1) 200 * ofNat 100).value =
      (2 * k + 1 : Nat) * 2 ^ (-1 : Int) := by
    refine value_mul_of_fits hk ?_
    rw [hmean, value_ofNat (by decide)]
    push_cast
    rw [hcast]
    norm_num
    ring
  refine ((roundQuotient_eq_iff two_ne_zero).mpr ?_).symm
  have hround := roundsTo_roundToInteger (nearest (2 * k + 1) 200 * ofNat 100)
  rw [hproduct, zpow_neg_one, ← div_eq_mul_inv] at hround
  exact_mod_cast hround

/-- **Away from midpoints.** The hundredfold of the rounded mean is rounded as that of the exact
one. -/
theorem hundredths_eq (hn : n ≠ 0) (ht : 200 * t < 2 ^ 52)
    (hmid : ∀ k, 200 * t ≠ (2 * k + 1) * n) :
    (nearest t n).hundredths = roundQuotient (100 * t) n := by
  have hpos : (0 : ℚ) < n := by positivity
  obtain ⟨habove, hbelow⟩ := roundQuotient_error (100 * t) (Nat.pos_of_ne_zero hn)
  obtain ⟨k, hk⟩ : ∃ k, k = roundQuotient (100 * t) n := ⟨_, rfl⟩
  rw [← hk] at habove hbelow ⊢
  -- The exact hundredfold is not half a step away from its integer, so it is a step of its
  -- denominator nearer.
  have habove' : 200 * t + 1 ≤ (2 * k + 1) * n := by
    have := hmid k
    omega
  have hbelow' : 2 * k * n + 1 ≤ 200 * t + n := by
    refine Nat.succ_le_of_lt (Nat.lt_of_le_of_ne (by omega) fun heq => ?_)
    cases k with
    | zero => omega
    | succ k => exact hmid k (by linarith)
  have hgap : 100 * (t : ℚ) / n + 1 / (2 * n) ≤ k + 1 / 2 := by
    have : (200 : ℚ) * t + 1 ≤ (2 * k + 1) * n := by exact_mod_cast habove'
    field_simp
    linarith
  have hgap' : (k : ℚ) - 1 / 2 ≤ 100 * (t : ℚ) / n - 1 / (2 * n) := by
    have : (2 : ℚ) * k * n + 1 ≤ 200 * t + n := by exact_mod_cast hbelow'
    field_simp
    linarith
  have hoff := abs_lt.mp (hundredfold_error hn ht)
  refine (roundsTo_roundToInteger _).unique (RoundsTo.of_lt ?_)
  rw [abs_lt]
  constructor <;> linarith

/-- **On a midpoint.** The rounded mean is that of the midpoint, so the midpoint decides. -/
theorem hundredths_eq_iff_of_midpoint {k : Nat} (hn : n ≠ 0)
    (hmid : 200 * t = (2 * k + 1) * n) :
    (nearest t n).hundredths = roundQuotient (100 * t) n ↔ KeepsMidpoint k := by
  have hpos : (0 : ℚ) < n := by positivity
  have hcast : (200 : ℚ) * t = (2 * k + 1) * n := by exact_mod_cast hmid
  have hmean : nearest t n = nearest (2 * k + 1) 200 := by
    refine nearest_congr hn (by decide) ?_
    push_cast
    rw [div_eq_div_iff hpos.ne' (by norm_num)]
    linarith
  have hquotient : ((100 * t : Nat) : ℚ) / n = (2 * k + 1 : Nat) / (2 : Nat) := by
    push_cast
    rw [div_eq_div_iff hpos.ne' (by norm_num)]
    linarith
  have hexact : roundQuotient (100 * t) n = roundQuotient (2 * k + 1) 2 := by
    rw [roundQuotient_eq_iff hn, hquotient]
    exact roundsTo_roundQuotient _ two_ne_zero
  rw [hmean, hexact, KeepsMidpoint]

/-- Only a number of members that is a multiple of forty has means on midpoints that are not
multiples of an eighth. -/
theorem keepsMidpoint_of_not_dvd {k : Nat} (hn : n ≠ 0) (ht : 200 * t < 2 ^ 52)
    (hmid : 200 * t = (2 * k + 1) * n) (h40 : ¬ 40 ∣ n) : KeepsMidpoint k := by
  have h8 : 8 ∣ n := by
    have hodd : Nat.Coprime (2 ^ 3) (2 * k + 1) :=
      Nat.Coprime.pow_left 3 (Nat.coprime_two_left.mpr ⟨k, rfl⟩)
    exact hodd.dvd_of_dvd_mul_left ⟨25 * t, by omega⟩
  have h5 : Nat.Coprime 5 n := by
    rw [Nat.prime_five.coprime_iff_not_dvd]
    intro h
    exact h40 (Nat.Coprime.mul_dvd_of_dvd_of_dvd (by decide) h8 h)
  have h25 : 25 ∣ 2 * k + 1 := by
    have hfive : Nat.Coprime (5 ^ 2) n := Nat.Coprime.pow_left 2 h5
    exact hfive.dvd_of_dvd_mul_right ⟨8 * t, by omega⟩
  obtain ⟨j, hj⟩ := h25
  have hle : 2 * k + 1 ≤ (2 * k + 1) * n := Nat.le_mul_of_pos_right _ (Nat.pos_of_ne_zero hn)
  exact keepsMidpoint_of_eighths hj (le_trans (by omega) (by decide : 2 ^ 52 ≤ _))

end Number.Binary64

namespace ApplicationReport

variable {r : ApplicationReport}

/-! ### The mean -/

/-- The mean of members that are not too many is the double nearest to the exact mean. -/
theorem mean_eq (hne : r.members ≠ []) (hcount : r.totalCount ≤ 2 * Binary64.leastMantissa)
    (hsum : r.totalDurationMs ≤ 2 * Binary64.leastMantissa) :
    r.mean = Binary64.nearest r.totalDurationMs r.totalCount :=
  Binary64.ofNat_div_ofNat hsum hcount (mt List.length_eq_zero_iff.mp hne)

/-- The mean of a report with members is its number of hundredths, divided by a hundred. -/
theorem averageDurationMs_eq (hne : r.members ≠ []) :
    r.averageDurationMs = Binary64.ofNat r.mean.hundredths / Binary64.ofNat 100 :=
  if_neg hne

/-- The mean before it is rounded to hundredths is off by four parts in `2 ^ 53` at most, however
many members there are. -/
theorem value_mean_error (hne : r.members ≠ [])
    (hsum : r.totalDurationMs ≤ 2 * Binary64.leastMantissa) :
    (1 - 4 / 2 ^ 53) * ((r.totalDurationMs : ℚ) / r.totalCount) ≤ r.mean.value ∧
      r.mean.value ≤ (1 + 4 / 2 ^ 53) * ((r.totalDurationMs : ℚ) / r.totalCount) := by
  have hcount : r.totalCount ≠ 0 := mt List.length_eq_zero_iff.mp hne
  have hpos : (0 : ℚ) < r.totalCount := by positivity
  have hone := Binary64.one_le_value_ofNat hcount
  have hden : 0 < (Binary64.ofNat r.totalCount).value := zero_lt_one.trans_le hone
  obtain ⟨hfewer, hmore⟩ := Binary64.value_ofNat_error r.totalCount
  have hdiv := Binary64.value_div_error (Binary64.ofNat r.totalDurationMs) hden
  rw [Binary64.value_ofNat hsum, ← mean] at hdiv
  -- The exact mean and the one that takes the rounded number of members.
  obtain ⟨exact, hexact⟩ : ∃ a : ℚ, a = r.totalDurationMs / r.totalCount := ⟨_, rfl⟩
  obtain ⟨taken, htaken⟩ : ∃ b : ℚ,
    b = r.totalDurationMs / (Binary64.ofNat r.totalCount).value := ⟨_, rfl⟩
  have hnonneg : 0 ≤ taken := by
    rw [htaken]
    positivity
  have htotal : exact * r.totalCount = taken * (Binary64.ofNat r.totalCount).value := by
    rw [hexact, htaken, div_mul_cancel₀ _ hpos.ne', div_mul_cancel₀ _ hden.ne']
  have hle : exact ≤ taken * (1 + 1 / 2 ^ 53) := by
    refine le_of_mul_le_mul_right ?_ hpos
    rw [htotal, mul_assoc]
    exact mul_le_mul_of_nonneg_left hmore hnonneg
  have hge : taken * (1 - 1 / 2 ^ 53) ≤ exact := by
    refine le_of_mul_le_mul_right ?_ hpos
    rw [htotal, mul_assoc]
    exact mul_le_mul_of_nonneg_left hfewer hnonneg
  rw [← htaken] at hdiv
  rw [← hexact]
  constructor <;> linarith

/-- The mean is within half a hundredth of the exact one, up to one part in `2 ^ 50`. -/
theorem averageDurationMs_error (hne : r.members ≠ [])
    (hsum : r.totalDurationMs ≤ 2 * Binary64.leastMantissa) :
    |r.averageDurationMs.value - (r.totalDurationMs : ℚ) / r.totalCount| ≤
      1 / 200 + ((r.totalDurationMs : ℚ) / r.totalCount + 1) / 2 ^ 50 := by
  have hhundred : (Binary64.ofNat 100).value = 100 := Binary64.value_ofNat (by decide)
  have hpos : 0 < (Binary64.ofNat 100).value := by
    rw [hhundred]
    norm_num
  have hnonneg : (0 : ℚ) ≤ r.totalDurationMs / r.totalCount := by positivity
  obtain ⟨hlow, hhigh⟩ := value_mean_error hne hsum
  obtain ⟨hlow', hhigh'⟩ := Binary64.value_hundredfold_error r.mean
  have hround := abs_le.mp (Binary64.roundsTo_roundToInteger (r.mean * Binary64.ofNat 100)).1
  rw [← Binary64.hundredths] at hround
  obtain ⟨hfewer, hmore⟩ := Binary64.value_ofNat_error r.mean.hundredths
  obtain ⟨hbelow, habove⟩ := Binary64.value_div_error (Binary64.ofNat r.mean.hundredths) hpos
  rw [hhundred] at hbelow habove
  rw [averageDurationMs_eq hne, abs_le]
  constructor <;> linarith

/-- More members than a double can count, all together in range, have a mean of zero. -/
theorem hundredths_mean_eq_zero (hcount : 2 * Binary64.leastMantissa < r.totalCount)
    (ht : 200 * r.totalDurationMs < 2 ^ 52) : r.mean.hundredths = 0 := by
  have htotal : (Binary64.ofNat r.totalDurationMs).value ≤ 2 ^ (45 : Int) := by
    refine Binary64.value_ofNat_le ?_
    have : r.totalDurationMs ≤ 2 ^ 45 := by omega
    exact_mod_cast this
  have hmany : (2 : ℚ) ^ (53 : Int) ≤ (Binary64.ofNat r.totalCount).value := by
    refine Binary64.pow_le_nearest one_ne_zero ?_
    rw [Nat.cast_one, div_one]
    have : 2 ^ 53 ≤ r.totalCount := le_trans (by decide) hcount.le
    exact_mod_cast this
  have hmean : r.mean.value ≤ 2 ^ (-8 : Int) := by
    refine Binary64.value_div_le ?_
    calc (Binary64.ofNat r.totalDurationMs).value / (Binary64.ofNat r.totalCount).value
        ≤ 2 ^ (45 : Int) / 2 ^ (53 : Int) := by gcongr
      _ = 2 ^ (-8 : Int) := by norm_num
  have hproduct : (r.mean * Binary64.ofNat 100).value ≤ 2 ^ (-1 : Int) := by
    refine Binary64.value_mul_le ?_
    rw [Binary64.value_ofNat (by decide)]
    norm_num at hmean ⊢
    linarith
  refine (Binary64.roundsTo_roundToInteger _).unique (roundsTo_iff.mpr ?_)
  have hnonneg := (r.mean * Binary64.ofNat 100).value_nonneg
  rw [zpow_neg_one] at hproduct
  rw [if_pos rfl]
  constructor <;> push_cast <;> linarith

/-- The number of hundredths is the exact one just when the midpoint that the exact mean is on, if
it is on one, is kept. -/
theorem hundredths_mean_eq_iff (hne : r.members ≠ []) (ht : 200 * r.totalDurationMs < 2 ^ 52) :
    r.mean.hundredths = roundQuotient (100 * r.totalDurationMs) r.totalCount ↔
      ∀ k, 200 * r.totalDurationMs = (2 * k + 1) * r.totalCount → Binary64.KeepsMidpoint k := by
  have hcount : r.totalCount ≠ 0 := mt List.length_eq_zero_iff.mp hne
  have hleast := Binary64.leastMantissa_eq
  rcases le_or_gt r.totalCount (2 * Binary64.leastMantissa) with hfew | hmany
  · rw [mean_eq hne hfew (by omega)]
    constructor
    · exact fun h k hmid => (Binary64.hundredths_eq_iff_of_midpoint hcount hmid).mp h
    · intro h
      by_cases hmid : ∃ k, 200 * r.totalDurationMs = (2 * k + 1) * r.totalCount
      · obtain ⟨k, hk⟩ := hmid
        exact (Binary64.hundredths_eq_iff_of_midpoint hcount hk).mpr (h k hk)
      · exact Binary64.hundredths_eq hcount ht (not_exists.mp hmid)
  · -- The exact mean is less than half a hundredth, and so on no midpoint.
    have hzero : roundQuotient (100 * r.totalDurationMs) r.totalCount = 0 := by
      rw [roundQuotient, Nat.div_eq_of_lt (by omega), Nat.mod_eq_of_lt (by omega)]
      exact if_pos (by omega)
    refine iff_of_true ((hundredths_mean_eq_zero hmany ht).trans hzero.symm) fun k hmid => ?_
    have hle : r.totalCount ≤ (2 * k + 1) * r.totalCount :=
      Nat.le_mul_of_pos_left _ (Nat.succ_pos (2 * k))
    omega

/-- The mean is the exact one in hundredths, a tie going to the even one, just when the midpoint
that the exact mean is on, if it is on one, is kept. -/
theorem averageDurationMs_eq_iff (hne : r.members ≠ []) (ht : 200 * r.totalDurationMs < 2 ^ 52) :
    r.averageDurationMs =
        Binary64.nearest (roundQuotient (100 * r.totalDurationMs) r.totalCount) 100 ↔
      ∀ k, 200 * r.totalDurationMs = (2 * k + 1) * r.totalCount → Binary64.KeepsMidpoint k := by
  have hcount : r.totalCount ≠ 0 := mt List.length_eq_zero_iff.mp hne
  have hleast := Binary64.leastMantissa_eq
  have hexact : roundQuotient (100 * r.totalDurationMs) r.totalCount ≤ 100 * r.totalDurationMs :=
    roundQuotient_le (Nat.le_mul_of_pos_right _ (Nat.pos_of_ne_zero hcount))
  have hrounded : r.mean.hundredths ≤ Binary64.leastMantissa := by
    rcases le_or_gt r.totalCount (2 * Binary64.leastMantissa) with hfew | hmany
    · rw [mean_eq hne hfew (by omega)]
      exact Binary64.hundredths_le hcount ht
    · rw [hundredths_mean_eq_zero hmany ht]
      exact Nat.zero_le _
  rw [averageDurationMs_eq hne, Binary64.ofNat_div_ofNat (by omega) (by decide) (by decide),
    ← hundredths_mean_eq_iff hne ht]
  exact ⟨Binary64.nearest_hundredths_inj hrounded (by omega), fun h => by rw [h]⟩

/-- **The mean and the exact mean.** The mean of a report with members whose durations come to less
than `2 ^ 53` is within half a hundredth of the exact one, up to one part in `2 ^ 50`. While two
hundred times the sum is below `2 ^ 52`, it is the double nearest to the exact mean in hundredths, a
tie going to the even one, just when the midpoint that the exact mean may be on is kept. That is so
whatever the durations unless the number of members is a multiple of forty. -/
theorem averageDurationMs_of_total (hne : r.members ≠ []) (hsum : r.totalDurationMs < 2 ^ 53) :
    |r.averageDurationMs.value - (r.totalDurationMs : ℚ) / r.totalCount| ≤
        1 / 200 + ((r.totalDurationMs : ℚ) / r.totalCount + 1) / 2 ^ 50 ∧
      (200 * r.totalDurationMs < 2 ^ 52 →
        (r.averageDurationMs =
            Binary64.nearest (roundQuotient (100 * r.totalDurationMs) r.totalCount) 100 ↔
          ∀ k, 200 * r.totalDurationMs = (2 * k + 1) * r.totalCount → Binary64.KeepsMidpoint k) ∧
        (¬ 40 ∣ r.totalCount → r.averageDurationMs =
          Binary64.nearest (roundQuotient (100 * r.totalDurationMs) r.totalCount) 100)) := by
  have hcount : r.totalCount ≠ 0 := mt List.length_eq_zero_iff.mp hne
  refine ⟨averageDurationMs_error hne (hsum.le.trans (by decide)), fun ht => ?_⟩
  have hiff := averageDurationMs_eq_iff hne ht
  exact ⟨hiff, fun h40 => hiff.mpr fun k hmid =>
    Binary64.keepsMidpoint_of_not_dvd hcount ht hmid h40⟩

/-- Eight members on the midpoint 1.125, which is a double, and its even neighbour. -/
theorem averageDurationMs_of_total_of_eight :
    let member (ms : Nat) : MemberReport := ⟨"m", "http://m/health", .ofHealth .healthy, ms, none⟩
    let r : ApplicationReport := ⟨"App", default, List.replicate 7 (member 1) ++ [member 2]⟩
    r.members ≠ [] ∧ r.totalDurationMs < 2 ^ 53 ∧ 200 * r.totalDurationMs < 2 ^ 52 ∧
      r.averageDurationMs = Binary64.nearest 112 100 := by
  intro member r
  have hne : r.members ≠ [] := by decide
  have htotal : r.totalDurationMs = 9 := by decide
  have hsum : r.totalDurationMs < 2 ^ 53 := by omega
  have ht : 200 * r.totalDurationMs < 2 ^ 52 := by omega
  have hquotient : roundQuotient (100 * r.totalDurationMs) r.totalCount = 112 := by decide
  have hexact := ((averageDurationMs_of_total hne hsum).2 ht).2 (by decide)
  rw [hquotient] at hexact
  exact ⟨hne, hsum, ht, hexact⟩

/-- Forty members that take 23 milliseconds in all are on the midpoint 0.575. Its double lies below
it, and the mean is 0.57, where the even neighbour is 0.58. -/
theorem averageDurationMs_of_forty :
    let member (ms : Nat) : MemberReport := ⟨"m", "http://m/health", .ofHealth .healthy, ms, none⟩
    let r : ApplicationReport :=
      ⟨"App", default, List.replicate 23 (member 1) ++ List.replicate 17 (member 0)⟩
    r.members ≠ [] ∧ r.totalDurationMs = 23 ∧ r.totalCount = 40 ∧
      roundQuotient (100 * r.totalDurationMs) r.totalCount = 58 ∧
      r.averageDurationMs = Binary64.nearest 57 100 ∧
      r.averageDurationMs ≠ Binary64.nearest 58 100 := by
  intro member r
  have hmean : r.averageDurationMs = Binary64.nearest 57 100 := by decide +kernel
  refine ⟨by decide, by decide, by decide, by decide, hmean, ?_⟩
  rw [hmean]
  decide +kernel

end ApplicationReport

end ServiceHealth
