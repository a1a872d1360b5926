import ServiceHealth.Number.Binary64
import ServiceHealth.Number.Digit

/-!
# The shortest decimal of a double

Every double is the nearest one to all decimals in an interval around it, the ends included
when its mantissa is even. Its shortest decimal is the one with the fewest digits in that
interval, and of several with as few digits the one nearest to the double itself.

## Main definitions

* `Decimal` — digits and a power of ten.
* `Binary64.shortest` — the shortest decimal that reads back.
* `Decimal.positional` — all places written out, no point for a whole number.
-/

namespace ServiceHealth.Number

/-- The decimal number `digits · 10 ^ exponent`. -/
structure Decimal where
  digits : Nat
  exponent : Int
  deriving DecidableEq, Repr, Inhabited

namespace Binary64

/-- The interval of numbers that round to `x`, as numerators over one denominator: its lower
end, `x` itself, its upper end, and the denominator. Below a power of two the gap to the
next double is half as wide. -/
def interval (x : Binary64) : Nat × Nat × Nat × Nat :=
  let gap := wholePower 2 x.exponent
  let below := if x.mantissa = leastMantissa then 1 else 2
  (x.num * 4 - below * gap, x.num * 4, x.num * 4 + 2 * gap, x.den * 4)

/-- The number `c · 10 ^ e` lies in the interval of `x`. -/
def covers (x : Binary64) (c : Nat) (e : Int) : Bool :=
  let (low, _, high, den) := x.interval
  let scaled := c * wholePower 10 e * den
  let unit := wholePower 10 (-e)
  if x.mantissa % 2 = 0 then low * unit ≤ scaled && scaled ≤ high * unit
  else low * unit < scaled && scaled < high * unit

/-- The decimal with its trailing zeros moved into the exponent, at most `fuel` of them. -/
def stripZeros : Nat → Nat → Int → Decimal
  | 0, c, e => ⟨c, e⟩
  | fuel + 1, c, e => if c ≠ 0 ∧ c % 10 = 0 then stripZeros fuel (c / 10) (e + 1) else ⟨c, e⟩

/-- The better of the two neighbours of `x` on the grid of multiples of `10 ^ e`, if one of
them lies in the interval of `x`. -/
def onGrid? (x : Binary64) (e : Int) : Option Nat :=
  let num := x.num * wholePower 10 (-e)
  let den := x.den * wholePower 10 e
  let down := num / den
  match x.covers down e && down ≠ 0, x.covers (down + 1) e with
  | true, true => some (roundQuotient num den)
  | true, false => some down
  | false, true => some (down + 1)
  | false, false => none

/-- The exponent of the leading digit of `num / den`, searched from an estimate: the largest
`k` with `10 ^ k ≤ num / den`. -/
def leadingExponent (num den : Nat) : Int :=
  let guess : Int := ((num.log2 : Int) - den.log2) * 30103 / 100000 - 1
  let atLeast (k : Int) : Bool := den * wholePower 10 k ≤ num * wholePower 10 (-k)
  if atLeast (guess + 2) then guess + 2
  else if atLeast (guess + 1) then guess + 1
  else guess

/-- The shortest decimal of `x`, trying the grids from the coarsest on: the first grid has one
digit before its last place, the last one seventeen. -/
def shortest (x : Binary64) : Decimal :=
  if x.mantissa = 0 then ⟨0, 0⟩
  else
    let top := leadingExponent x.num x.den
    let grids := (List.range 17).map fun (n : Nat) => top - n
    match grids.findSome? fun e => (x.onGrid? e).map (·, e) with
    | some (c, e) => stripZeros 20 c e
    | none => ⟨x.num, 0⟩

end Binary64

namespace Decimal

/-- The part before the point. -/
def whole (d : Decimal) : Nat := d.digits * wholePower 10 d.exponent / wholePower 10 (-d.exponent)

/-- The digits after the point, as many as the exponent asks for. -/
def places (d : Decimal) : List Digit := fixedDigits (-d.exponent).toNat d.digits

/-- The power of ten of the leading digit. -/
def leadingPower (d : Decimal) : Int := (Number.digits d.digits).2.length + d.exponent

/-- All places written out; a point only before places. -/
def positional (d : Decimal) : String :=
  String.ofList (Nat.toDigits 10 d.whole ++
    if d.places = [] then [] else '.' :: d.places.map Digit.char)

end Decimal

end ServiceHealth.Number
