import ServiceHealth.Number.Shortest

/-!
# JSON numbers as they are written

A numeral keeps every choice of its spelling: the sign, the digits after the point, the
letter and the sign of the exponent. So a numeral is written in exactly one way, and
different spellings of one number are different numerals.

## Main definitions

* `Numeral`, `Numeral.toChars` — the parts of a number, and its only spelling.
* `Numeral.ofNat`, `Numeral.ofDouble` — how counts and doubles are written.
* `Numeral.ofChars?` — the numeral that a word spells, by the grammar of JSON numbers.
* `Numeral.toNat?` — the value of a numeral that is written as a natural number.
* `Numeral.isFinite` — the number stays in range when it is read as a double.
-/

namespace ServiceHealth.Json

open Number

/-- The exponent of a number: its letter, its sign as written, and at least one digit. -/
structure Exponent where
  capital : Bool
  sign : Option Bool
  first : Digit
  rest : List Digit
  deriving DecidableEq, Repr

/-- A number as it is written. A sign of the exponent is `some true` for a minus. -/
structure Numeral where
  negative : Bool
  whole : Nat
  fraction : List Digit
  exponent : Option Exponent
  deriving DecidableEq, Repr

instance : Inhabited Numeral := ⟨⟨false, 0, [], none⟩⟩

namespace Exponent

/-- The spelling of an exponent. -/
def toChars (e : Exponent) : List Char :=
  (if e.capital then 'E' else 'e') ::
    ((match e.sign with | none => [] | some true => ['-'] | some false => ['+']) ++
      e.first.char :: e.rest.map Digit.char)

/-- The digits of an exponent, all of the characters given. -/
def ofDigits? (capital : Bool) (sign : Option Bool) (cs : List Char) : Option Exponent :=
  match cs.mapM digit? with
  | some (d :: ds) => some ⟨capital, sign, d, ds⟩
  | _ => none

/-- The exponent that follows its letter. -/
def afterLetter? (capital : Bool) : List Char → Option Exponent
  | '-' :: cs => ofDigits? capital (some true) cs
  | '+' :: cs => ofDigits? capital (some false) cs
  | cs => ofDigits? capital none cs

/-- A power of ten with its sign. -/
def ofInt (power : Int) : Exponent :=
  ⟨false, some (power < 0), (digits power.natAbs).1, (digits power.natAbs).2⟩

/-- The value of an exponent. -/
def value (e : Exponent) : Int :=
  let magnitude := valueOf (e.first :: e.rest)
  if e.sign = some true then -(magnitude : Int) else magnitude

end Exponent

namespace Numeral

/-- The numeral of a natural number. -/
def ofNat (n : Nat) : Numeral := ⟨false, n, [], none⟩

/-- The numeral of a double: its shortest decimal, with a point always, and with an exponent
for more than sixteen places before the point or more than four zeros after it. -/
def ofDouble (x : Binary64) : Numeral :=
  let d := x.shortest
  if d.digits ≠ 0 ∧ (d.leadingPower < -5 ∨ 15 < d.leadingPower) then
    let (first, rest) := digits d.digits
    ⟨false, first, rest, some (.ofInt d.leadingPower)⟩
  else ⟨false, d.whole, if d.places = [] then [0] else d.places, none⟩

/-- The only spelling of a numeral. -/
def toChars (n : Numeral) : List Char :=
  (if n.negative then ['-'] else []) ++ Nat.toDigits 10 n.whole ++
    (if n.fraction = [] then [] else '.' :: n.fraction.map Digit.char) ++
    (n.exponent.map Exponent.toChars).getD []

/-- What follows the digits of a number: nothing, or an exponent. -/
def exponentOf? : List Char → Option (Option Exponent)
  | [] => some none
  | 'e' :: cs => (Exponent.afterLetter? false cs).map some
  | 'E' :: cs => (Exponent.afterLetter? true cs).map some
  | _ => none

/-- What follows the whole part: digits after a point, and an exponent. -/
def fractionOf? : List Char → Option (List Digit × Option Exponent)
  | '.' :: cs => do
    let places ← (cs.takeWhile Char.isDigit).mapM digit?
    guard (places ≠ [])
    return (places, ← exponentOf? (cs.dropWhile Char.isDigit))
  | cs => return ([], ← exponentOf? cs)

/-- The number after its sign. The whole part has no zero in front of another digit. -/
def unsigned? (negative : Bool) (cs : List Char) : Option Numeral := do
  let whole := cs.takeWhile Char.isDigit
  guard (whole ≠ [] ∧ (whole.head? = some '0' → whole = ['0']))
  let (places, e) ← fractionOf? (cs.dropWhile Char.isDigit)
  return ⟨negative, Nat.ofDigitChars 10 whole 0, places, e⟩

/-- The numeral that a word spells. -/
def ofChars? : List Char → Option Numeral
  | '-' :: cs => unsigned? true cs
  | cs => unsigned? false cs

/-- The value of a numeral without sign, point and exponent. -/
def toNat? (n : Numeral) : Option Nat :=
  match n with
  | ⟨false, whole, [], none⟩ => some whole
  | _ => none

/-! ### Range -/

/-- Digits join the significand as long as it stays below `2 ^ 64`. The second component is
the number of digits taken. -/
def gather : Nat → List Digit → Nat × Nat
  | s, [] => (s, 0)
  | s, d :: ds =>
    if s * 10 + d < UInt64.size then
      let (s', taken) := gather (s * 10 + d) ds
      (s', taken + 1)
    else (s, 0)

/-- The leading digits that are read, and the power of ten that they are multiplied by. -/
def scaled (n : Numeral) : Nat × Int :=
  let whole := (digits n.whole).1 :: (digits n.whole).2
  let (s, taken) := gather 0 whole
  let (s', places) := gather s n.fraction
  (s', (whole.length : Int) - taken - places + (n.exponent.map Exponent.value).getD 0)

/-- The number is in range when it is read as a double: the product of its leading digits and
its power of ten, each rounded, does not overflow. -/
def isFinite (n : Numeral) : Bool :=
  let (s, e) := n.scaled
  s = 0 || e ≤ 0 ||
    (e ≤ 308 && (Binary64.ofNat s * Binary64.ofNat (wholePower 10 e)).isFinite)

example : String.ofList (ofDouble (.ofNat UInt64.size)).toChars = "1.8446744073709552e+19" := by
  decide +kernel
example : (ofChars? "-0.50E+07".toList).map toChars = some "-0.50E+07".toList := by decide +kernel
example : ofChars? "01".toList = none := by decide +kernel
example : ofChars? "1.".toList = none := by decide +kernel

end Numeral

end ServiceHealth.Json
