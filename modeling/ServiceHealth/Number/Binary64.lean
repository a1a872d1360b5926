/-!
# Double-precision numbers

The non-negative numbers `mantissa · 2 ^ exponent` with at most 53 significant bits, and the
operations of the arithmetic on them: each is the exact result rounded once to the nearest
such number, a tie going to the even mantissa. Durations, means and sums of durations need
no sign, and their magnitudes stay far from the ends of the exponent range, so the exponent
is unbounded here; `Binary64.isFinite` says where the format itself would overflow.

## Main definitions

* `roundQuotient` — a quotient rounded to an integer, a tie going to the even one.
* `wholePower` — the numerator of a power.
* `Binary64.nearest` — the double nearest to a quotient of natural numbers.
* `Binary64.add`, `Binary64.mul`, `Binary64.div` — rounded arithmetic.
* `Binary64.roundToInteger` — the nearest integer, a tie going to the even one.
-/

namespace ServiceHealth.Number

/-- The quotient `num / den` rounded to the nearest natural number, a tie going to the even
one. A zero denominator gives zero. -/
def roundQuotient (num den : Nat) : Nat :=
  let floor := num / den
  let twice := 2 * (num % den)
  if twice < den then floor
  else if den < twice then floor + 1
  else if floor % 2 = 0 then floor
  else floor + 1

/-- The numerator of `base ^ e` as a fraction, whose denominator is that of `-e`. -/
def wholePower (base : Nat) (e : Int) : Nat := Nat.pow base e.toNat

/-- A non-negative double: `mantissa · 2 ^ exponent`. -/
structure Binary64 where
  mantissa : Nat
  exponent : Int
  deriving DecidableEq, Repr, Inhabited

namespace Binary64

/-- The numerator of a double as a fraction. -/
def num (x : Binary64) : Nat := x.mantissa * wholePower 2 x.exponent

/-- The denominator of a double as a fraction, a power of two. -/
def den (x : Binary64) : Nat := wholePower 2 (-x.exponent)

/-- Zero. -/
def zero : Binary64 := ⟨0, 0⟩

/-- The least mantissa of 53 bits, `2 ^ 52`. -/
def leastMantissa : Nat := 0x10000000000000

/-- The exponent for which `num / den` has a mantissa of exactly 53 bits before rounding. -/
def exponentOf (num den : Nat) : Int :=
  let guess : Int := (num.log2 : Int) - den.log2 - 52
  if num * wholePower 2 (-guess) < den * wholePower 2 guess * leastMantissa then guess - 1
  else guess

/-- The double nearest to `num / den`, a tie going to the even mantissa. -/
def nearest (num den : Nat) : Binary64 :=
  if num = 0 ∨ den = 0 then zero
  else
    let e := exponentOf num den
    let m := roundQuotient (num * wholePower 2 (-e)) (den * wholePower 2 e)
    if m = 2 * leastMantissa then ⟨leastMantissa, e + 1⟩ else ⟨m, e⟩

/-- The double nearest to a natural number. -/
def ofNat (n : Nat) : Binary64 := nearest n 1

/-- The rounded sum. -/
def add (x y : Binary64) : Binary64 := nearest (x.num * y.den + y.num * x.den) (x.den * y.den)

/-- The rounded product. -/
def mul (x y : Binary64) : Binary64 := nearest (x.num * y.num) (x.den * y.den)

/-- The rounded quotient. -/
def div (x y : Binary64) : Binary64 := nearest (x.num * y.den) (x.den * y.num)

/-- The nearest natural number, a tie going to the even one. -/
def roundToInteger (x : Binary64) : Nat := roundQuotient x.num x.den

/-- The number is below the overflow threshold of the format. -/
def isFinite (x : Binary64) : Bool := x.mantissa = 0 || x.exponent < 972

instance : Add Binary64 := ⟨add⟩
instance : Mul Binary64 := ⟨mul⟩
instance : Div Binary64 := ⟨div⟩

example : ofNat (2 * leastMantissa + 1) = ofNat (2 * leastMantissa) := by decide +kernel
example : nearest 1 10 + nearest 2 10 = ⟨0x13333333333334, -54⟩ := by decide +kernel

end Binary64

end ServiceHealth.Number
