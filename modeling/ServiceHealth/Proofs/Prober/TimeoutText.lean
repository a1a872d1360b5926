import ServiceHealth.Proofs.Number.Positional
import ServiceHealth.Proofs.Number.ShortestReading
import ServiceHealth.Proofs.Prober

/-!
# The text of a timeout

A probe that runs into its timeout says after how many seconds. The number of seconds is computed as
the whole seconds plus the rest, where the rest is rounded to a double and then the sum once more,
and is written as the shortest decimal of the double that comes out. Below `2 ^ 43` seconds a double
takes in one multiple of a thousandth at most, so the text is the exact number of seconds just when
the two roundings give the double that one would give. They differ only where the rest, off by
`2 ^ -54`, crosses a midpoint between two doubles, which takes a sum below 64.

However the sum is rounded, it stays within half a thousandth of the exact number there, and its
shortest decimal reads back. So different timeouts have different texts, which cannot be said of
timeouts beyond: their texts are the same just when their seconds are the same double.

## Main definitions

* `timeoutPayload` — the payload that says a number of seconds.

## Main results

* `secondsOf_eq_of_le` — the two roundings from 64 seconds on.
* `secondsOf_injective` — seconds of different timeouts.
* `timeoutText_eq_iff` — when the text is the exact number of seconds.
* `Prober.http_timedOut_payload` — the payload of a probe that ran into its timeout.
-/

namespace ServiceHealth

open Number Json

/-! ### The seconds of a timeout -/

/-- The seconds of a timeout are the whole seconds and the rest, which is a rounded quotient,
rounded together. -/
theorem secondsOf_eq {ms : Nat} (h : ms ≤ 2 ^ 53) : ∃ num den : Nat, den ≠ 0 ∧
    (num : ℚ) / den = (ms / 1000 : Nat) + (Binary64.nearest (ms % 1000) 1000).value ∧
    secondsOf ms = Binary64.nearest num den := by
  have hleast := Binary64.leastMantissa_eq
  have hrest : Binary64.ofNat (ms % 1000 * 1000000) / Binary64.ofNat nanosecondsPerSecond =
      Binary64.nearest (ms % 1000) 1000 := by
    have hmod := Nat.mod_lt ms (by decide : 0 < 1000)
    rw [Binary64.ofNat_div_ofNat (by omega) (by decide) (by decide)]
    refine Binary64.nearest_congr (by decide) (by decide) ?_
    rw [nanosecondsPerSecond]
    push_cast
    ring
  have hwhole : (Binary64.ofNat (ms / 1000)).value = (ms / 1000 : Nat) := by
    exact Binary64.value_ofNat (by omega)
  set x := Binary64.ofNat (ms / 1000) with hx
  set y := Binary64.nearest (ms % 1000) 1000 with hy
  refine ⟨x.num * y.den + y.num * x.den, x.den * y.den,
    (Nat.mul_pos x.den_pos y.den_pos).ne', ?_, ?_⟩
  · rw [Binary64.add_exact, hwhole]
  · rw [secondsOf, hrest]
    rfl

/-- The rest of a timeout is rounded to a double below one, off by `2 ^ -54` at most. -/
theorem value_rest_bounds (ms : Nat) :
    |(Binary64.nearest (ms % 1000) 1000).value - (ms % 1000 : Nat) / 1000| ≤ 1 / 2 ^ 54 ∧
      (Binary64.nearest (ms % 1000) 1000).value < 1 := by
  have hmod : ((ms % 1000 : Nat) : ℚ) + 1 ≤ 1000 := by
    exact_mod_cast Nat.mod_lt ms (by decide : 0 < 1000)
  have hbelow : ((ms % 1000 : Nat) : ℚ) / (1000 : Nat) < 2 ^ (-53 + 53 : Int) := by
    norm_num
    linarith
  have herror := Binary64.abs_nearest_sub_le (by decide) hbelow
  rw [Nat.cast_ofNat] at herror
  have herror' : |(Binary64.nearest (ms % 1000) 1000).value - (ms % 1000 : Nat) / 1000| ≤
      1 / 2 ^ 54 := by
    refine herror.trans (le_of_eq ?_)
    norm_num
  have hhigh := (abs_le.mp herror').2
  exact ⟨herror', by linarith⟩

/-- What is rounded to the seconds of a timeout is off by `2 ^ -54` at most. -/
theorem exists_rounded_seconds {ms : Nat} (h : ms ≤ 2 ^ 53) : ∃ num den : Nat, den ≠ 0 ∧
    secondsOf ms = Binary64.nearest num den ∧ |(num : ℚ) / den - ms / 1000| ≤ 1 / 2 ^ 54 ∧
    ((ms / 1000 : Nat) : ℚ) ≤ num / den ∧ (num : ℚ) / den < (ms / 1000 : Nat) + 1 := by
  obtain ⟨num, den, hden, hsum, heq⟩ := secondsOf_eq h
  obtain ⟨herror, hbelow⟩ := value_rest_bounds ms
  have hnonneg := (Binary64.nearest (ms % 1000) 1000).value_nonneg
  refine ⟨num, den, hden, heq, ?_, ?_, ?_⟩
  · have hsplit := div_eq_whole_add ms (by decide : 1000 ≠ 0)
    rw [Nat.cast_ofNat] at hsplit
    rw [hsum, hsplit, add_sub_add_left_eq_sub]
    exact herror
  · linarith
  · linarith

/-- The seconds of a timeout stay within half a thousandth of the exact number below `2 ^ 43`
seconds. -/
theorem abs_secondsOf_sub_lt {ms : Nat} (h : ms < 2 ^ 43 * 1000) :
    |(secondsOf ms).value - ms / 1000| < 1 / 2000 := by
  have hmax : ms ≤ 2 ^ 53 := by omega
  obtain ⟨num, den, hden, heq, hoff, -, hhigh⟩ := exists_rounded_seconds hmax
  have hwhole : ((ms / 1000 : Nat) : ℚ) + 1 ≤ 2 ^ 43 := by
    have : ms / 1000 + 1 ≤ 2 ^ 43 := by omega
    exact_mod_cast this
  have hround := Binary64.abs_nearest_sub_le (k := -10) hden
    (hhigh.trans_le (hwhole.trans (by norm_num)))
  rw [heq]
  have hsplit := abs_add_le ((Binary64.nearest num den).value - num / den) (num / den - ms / 1000)
  rw [sub_add_sub_cancel] at hsplit
  norm_num at hround hoff
  linarith

/-- Different timeouts below `2 ^ 43` seconds have different seconds. -/
theorem secondsOf_injective {ms ms' : Nat} (h : ms < 2 ^ 43 * 1000) (h' : ms' < 2 ^ 43 * 1000)
    (heq : secondsOf ms = secondsOf ms') : ms = ms' := by
  have hclose := abs_lt.mp (abs_secondsOf_sub_lt h)
  have hclose' := abs_lt.mp (abs_secondsOf_sub_lt h')
  rw [heq] at hclose
  refine eq_of_abs_sub_lt_one ?_
  rw [abs_lt]
  constructor <;> linarith

/-- The seconds of a timeout are a moderate double. -/
theorem isModerate_secondsOf {ms : Nat} (hpos : 1 ≤ ms) (h : ms ≤ 2 ^ 53) :
    (secondsOf ms).IsModerate := by
  obtain ⟨num, den, hden, heq, hoff, -, -⟩ := exists_rounded_seconds h
  have hone : (1 : ℚ) ≤ ms := by exact_mod_cast hpos
  have hmost : (ms : ℚ) ≤ 2 ^ 53 := by exact_mod_cast h
  obtain ⟨hoff', hoff''⟩ := abs_le.mp hoff
  have hlow : (2 : ℚ) ^ (-10 : Int) ≤ num / den := by
    norm_num at hoff' ⊢
    linarith
  have hhigh : (num : ℚ) / den < 2 ^ (-9 + 53 : Int) := by
    norm_num at hoff'' ⊢
    linarith
  have hnum : num ≠ 0 := by
    rintro rfl
    rw [Nat.cast_zero, zero_div] at hlow
    exact absurd hlow (by norm_num)
  have hround := (abs_le.mp (Binary64.abs_nearest_sub_le hden hhigh)).2
  rw [heq]
  refine ⟨Binary64.isNormal_nearest hnum hden, Binary64.pow_le_nearest hden hlow, ?_⟩
  norm_num at hoff'' hround ⊢
  linarith

/-- The seconds of a timeout below `2 ^ 43` seconds have a unit of less than a thousandth, and reach
a thousandth. -/
theorem secondsOf_bounds {ms : Nat} (hpos : 1 ≤ ms) (h : ms < 2 ^ 43 * 1000) :
    (2 : ℚ) ^ (secondsOf ms).exponent < 10 ^ (-3 : Int) ∧
      10 ^ (-3 : Int) ≤ (secondsOf ms).value ∧ (secondsOf ms).value < 10 ^ (14 : Int) := by
  have hmost : (ms : ℚ) + 1 ≤ 2 ^ 43 * 1000 := by exact_mod_cast h
  obtain ⟨hlow, hhigh⟩ := abs_lt.mp (abs_secondsOf_sub_lt h)
  have hexp := (isModerate_secondsOf hpos (by omega)).normal.exponent_lt (k := -9)
    (by norm_num; linarith)
  refine ⟨?_, ?_, ?_⟩
  · calc (2 : ℚ) ^ (secondsOf ms).exponent ≤ 2 ^ (-10 : Int) :=
          zpow_le_zpow_right₀ (by norm_num) (by omega)
      _ < 10 ^ (-3 : Int) := by norm_num
  · rcases Nat.eq_or_lt_of_le hpos with rfl | hmore
    · -- One thousandth is rounded up.
      rw [show secondsOf 1 = ⟨0x10624DD2F1A9FC, -62⟩ by decide +kernel, Binary64.value]
      norm_num
    · have : (2 : ℚ) ≤ ms := by exact_mod_cast hmore
      norm_num
      linarith
  · norm_num
    linarith

/-! ### Two roundings and one -/

/-- Below one second the rest is all, and the sum is exact. -/
theorem secondsOf_eq_of_lt {ms : Nat} (h : ms < 1000) :
    secondsOf ms = Binary64.nearest ms 1000 := by
  have hmax : ms ≤ 2 ^ 53 := by omega
  obtain ⟨num, den, hden, hsum, heq⟩ := secondsOf_eq hmax
  rw [Nat.div_eq_of_lt h, Nat.mod_eq_of_lt h, Nat.cast_zero, zero_add] at hsum
  rw [heq, Binary64.nearest_of_eq_value hden hsum]

/-- Whole seconds are exact. -/
theorem secondsOf_eq_of_dvd {ms : Nat} (hmax : ms ≤ 2 ^ 53) (h : 1000 ∣ ms) :
    secondsOf ms = Binary64.nearest ms 1000 := by
  obtain ⟨num, den, hden, hsum, heq⟩ := secondsOf_eq hmax
  have hmod := Nat.mod_eq_zero_of_dvd h
  have hzero : (Binary64.nearest (ms % 1000) 1000).value = 0 := by
    rw [hmod, Binary64.nearest_eq_zero (.inl rfl)]
    simp [Binary64.value, Binary64.zero]
  rw [heq]
  refine Binary64.nearest_congr hden (by decide) ?_
  have hsplit := div_eq_whole_add ms (by decide : 1000 ≠ 0)
  rw [hmod] at hsplit
  rw [hsum, hzero, hsplit, Nat.cast_zero, zero_div]

/-- A multiple of `1 / 125` is not on a midpoint, and so a multiple of `1 / 250` away from it. -/
theorem abs_sub_le_of_roundsTo {a m : Nat} (h : RoundsTo ((a : ℚ) / 125) m) :
    |(a : ℚ) / 125 - m| ≤ 62 / 125 := by
  obtain ⟨hlow, hhigh⟩ := abs_le.mp h.1
  have hhigh' : 2 * a ≤ 250 * m + 125 := by
    have : (2 : ℚ) * a ≤ 250 * m + 125 := by linarith
    exact_mod_cast this
  have hlow' : 250 * m ≤ 2 * a + 125 := by
    have : (250 : ℚ) * m ≤ 2 * a + 125 := by linarith
    exact_mod_cast this
  have hhigh'' : (a : ℚ) ≤ 125 * m + 62 := by
    have : a ≤ 125 * m + 62 := by omega
    exact_mod_cast this
  have hlow'' : (125 : ℚ) * m ≤ a + 62 := by
    have : 125 * m ≤ a + 62 := by omega
    exact_mod_cast this
  rw [abs_le]
  constructor <;> linarith

/-- Whole seconds, and the next ones, lie between the same powers of two as the exact number. -/
theorem whole_seconds_bounds {ms k : Nat} (hlow : (2 : ℚ) ^ k ≤ ms / 1000)
    (hhigh : (ms : ℚ) / 1000 < 2 ^ (k + 1)) :
    (2 : ℚ) ^ k ≤ (ms / 1000 : Nat) ∧ ((ms / 1000 : Nat) : ℚ) + 1 ≤ 2 ^ (k + 1) := by
  rw [le_div_iff₀ (by norm_num)] at hlow
  rw [div_lt_iff₀ (by norm_num)] at hhigh
  have hlow' : 2 ^ k * 1000 ≤ ms := by exact_mod_cast hlow
  have hhigh' : ms < 2 ^ (k + 1) * 1000 := by exact_mod_cast hhigh
  have hwhole : 2 ^ k ≤ ms / 1000 := (Nat.le_div_iff_mul_le (by decide)).mpr hlow'
  have hnext : ms / 1000 + 1 ≤ 2 ^ (k + 1) := Nat.div_lt_of_lt_mul (by omega)
  constructor
  · exact_mod_cast hwhole
  · exact_mod_cast hnext

/-- From 64 seconds on the units of the sum are so wide that the error of the rest does not reach a
midpoint: in these units the exact number is a multiple of `1 / 125`. -/
theorem secondsOf_eq_of_le {ms : Nat} (hlow : 64000 ≤ ms) (hmax : ms ≤ 2 ^ 53) :
    secondsOf ms = Binary64.nearest ms 1000 := by
  obtain ⟨num, den, hden, heq, hoff, hbelow, habove⟩ := exists_rounded_seconds hmax
  have hms : ms ≠ 0 := by omega
  obtain ⟨hunits, hunits'⟩ := Binary64.exponentOf_bounds hms (by decide : 1000 ≠ 0)
  have hround := Binary64.roundsTo_roundedMantissa ms (by decide : 1000 ≠ 0)
  generalize Binary64.exponentOf ms 1000 = e at *
  generalize Binary64.roundedMantissa ms 1000 = m at *
  rw [Nat.cast_ofNat] at hunits hunits' hround
  have hleast : (2 : ℚ) ^ (6 : Int) ≤ (ms : ℚ) / 1000 := by
    have : (64000 : ℚ) ≤ ms := by exact_mod_cast hlow
    norm_num
    linarith
  have hmost : (ms : ℚ) / 1000 < 2 ^ (44 : Int) := by
    have : (ms : ℚ) ≤ 2 ^ 53 := by exact_mod_cast hmax
    norm_num
    linarith
  have he := Binary64.lt_of_pow_lt (hleast.trans_lt hunits')
  have he' := Binary64.lt_of_pow_lt (hunits.trans_lt hmost)
  -- The number of units in a second is eight times a power of two, at most `2 ^ 46`.
  obtain ⟨j, rfl⟩ : ∃ j : Nat, e = -(j : Int) - 3 := ⟨(-e - 3).toNat, by omega⟩
  have hscale (y : ℚ) : y / 2 ^ (-(j : Int) - 3) = y * (8 * 2 ^ j) := by
    rw [zpow_sub₀ (by norm_num), zpow_neg, zpow_natCast]
    field_simp
    norm_num
  have hsums : (2 : ℚ) ^ (-(j : Int) - 3 + 52) ≤ num / den ∧
      (num : ℚ) / den < 2 ^ (-(j : Int) - 3 + 53) := by
    have hk : -(j : Int) - 3 + 52 = (49 - j : Nat) := by omega
    have hk' : -(j : Int) - 3 + 53 = ((49 - j + 1 : Nat) : Int) := by omega
    rw [hk, zpow_natCast] at hunits ⊢
    rw [hk', zpow_natCast] at hunits' ⊢
    obtain ⟨hwhole, hnext⟩ := whole_seconds_bounds hunits hunits'
    exact ⟨hwhole.trans hbelow, habove.trans_le hnext⟩
  have hmid : |(ms : ℚ) / 1000 / 2 ^ (-(j : Int) - 3) - m| ≤ 62 / 125 := by
    have hmultiple : (ms : ℚ) / 1000 / 2 ^ (-(j : Int) - 3) = (ms * 2 ^ j : Nat) / 125 := by
      rw [hscale]
      push_cast
      ring
    rw [hmultiple] at hround ⊢
    exact abs_sub_le_of_roundsTo hround
  have hshift : |(num : ℚ) / den / 2 ^ (-(j : Int) - 3) - ms / 1000 / 2 ^ (-(j : Int) - 3)| ≤
      1 / 2 ^ 8 := by
    have hpow : (2 : ℚ) ^ j ≤ 2 ^ 43 := pow_le_pow_right₀ (by norm_num) (by omega)
    rw [hscale, hscale, ← sub_mul, abs_mul, abs_of_pos (by positivity : (0 : ℚ) < 8 * 2 ^ j)]
    calc |(num : ℚ) / den - ms / 1000| * (8 * 2 ^ j) ≤ 1 / 2 ^ 54 * (8 * 2 ^ 43) := by gcongr
      _ = 1 / 2 ^ 8 := by norm_num
  rw [heq]
  refine Binary64.nearest_eq_nearest_of_close hden (by decide) rfl (by rw [Nat.cast_ofNat]) hsums
    ⟨hunits, hunits'⟩ hround ?_
  calc |(num : ℚ) / den / 2 ^ (-(j : Int) - 3) - ms / 1000 / 2 ^ (-(j : Int) - 3)| +
        |(ms : ℚ) / 1000 / 2 ^ (-(j : Int) - 3) - m|
      ≤ 1 / 2 ^ 8 + 62 / 125 := add_le_add hshift hmid
    _ < 1 / 2 := by norm_num

/-! ### Texts -/

/-- The payload that says a number of seconds. -/
def timeoutPayload (n : Numeral) : String :=
  "Timeout after " ++ String.ofList n.toChars ++ " seconds"

/-- Payloads tell numerals apart. -/
theorem timeoutPayload_injective : Function.Injective timeoutPayload := by
  intro n n' h
  rw [timeoutPayload, timeoutPayload, String.append_left_inj, String.append_right_inj,
    String.ofList_inj] at h
  exact Numeral.toChars_injective h

/-- The text of a timeout says the numeral of its shortest decimal. -/
theorem timeoutText_eq (ms : Nat) :
    timeoutText ms = timeoutPayload (secondsOf ms).shortest.numeral := by
  rw [timeoutText, Decimal.positional_eq, timeoutPayload]

/-- Timeouts have one text just when their seconds are one double. -/
theorem timeoutText_eq_timeoutText_iff {ms ms' : Nat} (hpos : 1 ≤ ms) (h : ms ≤ 2 ^ 53)
    (hpos' : 1 ≤ ms') (h' : ms' ≤ 2 ^ 53) :
    timeoutText ms' = timeoutText ms ↔ secondsOf ms' = secondsOf ms := by
  refine ⟨fun htext => ?_, fun hseconds => by rw [timeoutText, timeoutText, hseconds]⟩
  have hmoderate := isModerate_secondsOf hpos h
  have hmoderate' := isModerate_secondsOf hpos' h'
  rw [timeoutText, timeoutText, String.append_left_inj, String.append_right_inj] at htext
  have hvalue := Decimal.value_eq_of_positional_eq htext
  have htakes := Binary64.takesIn_value_shortest hmoderate
  have htakes' := Binary64.takesIn_value_shortest hmoderate'
  rw [hvalue] at htakes'
  refine htakes'.unique hmoderate'.normal hmoderate.normal ?_ htakes
  have hdigits := Binary64.digits_shortest hmoderate
  have hne : (secondsOf ms).shortest.digits ≠ 0 := fun hzero => hdigits (by rw [hzero])
  rw [Decimal.value]
  positivity

/-- A number of milliseconds has a plain numeral in seconds, with three places at most. -/
theorem exists_isPlainFor {ms : Nat} (hpos : ms ≠ 0) :
    ∃ n : Numeral, n.IsPlainFor (ms / 1000) ∧ n.fraction.length ≤ 3 := by
  refine ⟨(Binary64.stripZeros 3 ms (-3)).numeral, ?_, ?_⟩
  · have hplain := Decimal.isPlainFor_numeral (d := Binary64.stripZeros 3 ms (-3))
      (by simpa using Binary64.digits_stripZeros_or hpos 3 (-3))
    rw [Binary64.value_stripZeros] at hplain
    have hexact : (ms : ℚ) * 10 ^ (-3 : Int) = ms / 1000 := by norm_num; ring
    rwa [hexact] at hplain
  · have hexp := Binary64.le_exponent_stripZeros 3 ms (-3)
    rw [Decimal.numeral, Decimal.places, length_fixedDigits]
    omega

/-- The text of a timeout below `2 ^ 43` seconds is the exact number just when the two roundings of
the sum give what one rounding gives. -/
theorem timeoutText_eq_iff {ms : Nat} (hpos : 1 ≤ ms) (h : ms < 2 ^ 43 * 1000) {n : Numeral}
    (hn : n.IsPlainFor (ms / 1000)) :
    timeoutText ms = timeoutPayload n ↔ secondsOf ms = Binary64.nearest ms 1000 := by
  have hms : ms ≠ 0 := by omega
  have hmoderate := isModerate_secondsOf hpos (by omega : ms ≤ 2 ^ 53)
  have hexact : (ms : ℚ) * 10 ^ (-3 : Int) = ms / 1000 := by norm_num; ring
  rw [timeoutText_eq]
  constructor
  · intro htext
    have hvalue := congrArg Numeral.magnitude (timeoutPayload_injective htext)
    rw [Decimal.magnitude_numeral, hn.magnitude] at hvalue
    have htakes := Binary64.takesIn_value_shortest hmoderate
    rw [hvalue] at htakes
    exact ((Binary64.nearest_eq_iff hmoderate.normal hms (by decide)).mpr
      (by exact_mod_cast htakes)).symm
  · intro hseconds
    have htakes := Binary64.takesIn_nearest hms (by decide : 1000 ≠ 0)
    rw [← hseconds, Nat.cast_ofNat, ← hexact] at htakes
    obtain ⟨hwide, hlow, hhigh⟩ := secondsOf_bounds hpos h
    have hvalue := Binary64.value_shortest_eq hmoderate hms htakes hwide hlow hhigh
    have hplain := Decimal.isPlainFor_numeral (.inl (Binary64.digits_shortest hmoderate))
    rw [hvalue, hexact] at hplain
    rw [hplain.unique hn]

/-- **The text of a timeout.** A probe that ran into its timeout of up to `2 ^ 53` milliseconds is
reported as unreachable, and its payload names a number of seconds. There is one plain numeral of
the exact number, with three places at most. Below `2 ^ 43` seconds the payload says it just when
the seconds of the timeout are the double nearest to the exact number, which holds below one second,
for whole seconds and from 64 seconds on. Payloads of different timeouts are the same just when
their seconds are one double, and so never below `2 ^ 43` seconds. -/
theorem Prober.http_timedOut_payload (network : Net.Network) {timeoutMs elapsed start : Nat}
    (name uri : String) {cancelAt : Option Nat} (hpos : 1 ≤ timeoutMs) (hmax : timeoutMs ≤ 2 ^ 53)
    (hrace : race (cancelAt.map (· - start)) timeoutMs (Fetch.ofUri network uri).ending =
      (elapsed, .timedOut)) :
    (Prober.http network timeoutMs name uri start cancelAt).outcome =
        .report (.unreachable name uri elapsed (timeoutText timeoutMs)) ∧
      (∃ n : Numeral, n.IsPlainFor (timeoutMs / 1000) ∧ n.fraction.length ≤ 3 ∧
        (timeoutMs < 2 ^ 43 * 1000 →
          (timeoutText timeoutMs = timeoutPayload n ↔
            secondsOf timeoutMs = Binary64.nearest timeoutMs 1000) ∧
          (timeoutMs < 1000 ∨ 1000 ∣ timeoutMs ∨ 64000 ≤ timeoutMs →
            timeoutText timeoutMs = timeoutPayload n))) ∧
      ∀ other, 1 ≤ other → other ≤ 2 ^ 53 →
        (timeoutText other = timeoutText timeoutMs ↔ secondsOf other = secondsOf timeoutMs) ∧
        (timeoutMs < 2 ^ 43 * 1000 → other < 2 ^ 43 * 1000 →
          timeoutText other = timeoutText timeoutMs → other = timeoutMs) := by
  have hms : timeoutMs ≠ 0 := by omega
  obtain ⟨n, hn, hplaces⟩ := exists_isPlainFor hms
  refine ⟨?_, ⟨n, hn, hplaces, fun hrange => ?_⟩, fun other hother hother' => ?_⟩
  · simp only [Prober.http, hrace]
    rfl
  · have hiff := timeoutText_eq_iff hpos hrange hn
    refine ⟨hiff, fun hcases => hiff.mpr ?_⟩
    rcases hcases with hshort | hwhole | hlong
    · exact secondsOf_eq_of_lt hshort
    · exact secondsOf_eq_of_dvd hmax hwhole
    · exact secondsOf_eq_of_le hlong hmax
  · have hiff := timeoutText_eq_timeoutText_iff hpos hmax hother hother'
    exact ⟨hiff, fun hrange hrange' htext => secondsOf_injective hrange' hrange (hiff.mp htext)⟩

/-- A host that never answers within 90.5 seconds, and the only plain numeral of these. -/
theorem Prober.http_timedOut_payload_of_silence :
    let network : Net.Network := .silent
    1 ≤ 90500 ∧ 90500 ≤ 2 ^ 53 ∧
      race none 90500 (Fetch.ofUri network "http://slow.internal/h").ending = (90500, .timedOut) ∧
      (Prober.http network 90500 "svc" "http://slow.internal/h" 0 none).outcome =
        .report
          (.unreachable "svc" "http://slow.internal/h" 90500 "Timeout after 90.5 seconds") := by
  intro network
  have hrace : race none 90500 (Fetch.ofUri network "http://slow.internal/h").ending =
      (90500, .timedOut) := by decide +kernel
  have hrace' : race ((none : Option Nat).map (· - 0)) 90500
      (Fetch.ofUri network "http://slow.internal/h").ending = (90500, .timedOut) := hrace
  obtain ⟨hreport, ⟨n, hn, -, htext⟩, -⟩ :=
    Prober.http_timedOut_payload network "svc" "http://slow.internal/h" (by decide) (by decide)
      hrace'
  have hplain : (⟨false, 90, [5], none⟩ : Numeral).IsPlainFor ((90500 : Nat) / 1000) :=
    ⟨rfl, rfl, by decide, by norm_num [Numeral.magnitude, Numeral.power, extended]⟩
  have hpayload := (htext (by decide)).2 (.inr (.inr (by decide)))
  rw [hn.unique hplain] at hpayload
  have hspelled : timeoutPayload ⟨false, 90, [5], none⟩ = "Timeout after 90.5 seconds" := by
    decide +kernel
  rw [hpayload, hspelled] at hreport
  exact ⟨by decide, by decide, hrace, hreport⟩

/-- A timeout of 1118 milliseconds is reported with digits that no configuration has, where the
exact number is 1.118, and two different timeouts beyond `2 ^ 43` seconds have one text. -/
theorem Prober.http_timedOut_payload_off :
    let network : Net.Network := .silent
    (Prober.http network 1118 "svc" "http://slow.internal/h" 0 none).outcome =
        .report (.unreachable "svc" "http://slow.internal/h" 1118
          "Timeout after 1.1179999999999999 seconds") ∧
      (⟨false, 1, [1, 1, 8], none⟩ : Numeral).IsPlainFor (1118 / 1000) ∧
      timeoutPayload ⟨false, 1, [1, 1, 8], none⟩ = "Timeout after 1.118 seconds" ∧
      timeoutText 8796093022208001 = timeoutText 8796093022208002 := by
  intro network
  refine ⟨by decide +kernel, ⟨rfl, rfl, by decide, ?_⟩, by decide +kernel, by decide +kernel⟩
  norm_num [Numeral.magnitude, Numeral.power, extended]

end ServiceHealth
