/-!
# Decimal digits

## Main definitions

* `Digit`, `digit?`, `Digit.char` — digits and their characters.
* `digits` — the digits of a natural number, the first one apart.
* `fixedDigits` — its last digits, with zeros in front up to a width.
* `valueOf` — the number that digits denote.

## Main results

* `valueOf_digits` — the digits of a number denote it.
-/

namespace ServiceHealth.Number

/-- A decimal digit. -/
abbrev Digit := Fin 10

/-- The digit that a character stands for, if it is one of `0`–`9`. -/
def digit? (c : Char) : Option Digit :=
  if h : c.toNat - 48 < 10 ∧ 48 ≤ c.toNat then some ⟨c.toNat - 48, h.1⟩ else none

/-- The character of a digit. -/
def Digit.char (d : Digit) : Char := Nat.digitChar d

/-- The last digit of a number. -/
def lastDigit (n : Nat) : Digit := ⟨n % 10, Nat.mod_lt _ (by decide)⟩

/-- The digits of a number: the first, which is zero for zero alone, and the others. -/
def digits (n : Nat) : Digit × List Digit :=
  if n < 10 then (lastDigit n, [])
  else ((digits (n / 10)).1, (digits (n / 10)).2 ++ [lastDigit n])

/-- The last `width` digits of a number. -/
def fixedDigits : Nat → Nat → List Digit
  | 0, _ => []
  | width + 1, n => fixedDigits width (n / 10) ++ [lastDigit n]

/-- The number that a sequence of digits denotes. -/
def valueOf (ds : List Digit) : Nat := ds.foldl (fun (n : Nat) (d : Digit) => n * 10 + d) 0

/-- Writing a number with its digits loses nothing. -/
theorem valueOf_digits (n : Nat) : valueOf ((digits n).1 :: (digits n).2) = n := by
  induction n using digits.induct with
  | case1 n h =>
    rw [digits, if_pos h]
    simp [valueOf, lastDigit, Nat.mod_eq_of_lt h]
  | case2 n h ih =>
    rw [digits, if_neg h]
    have hcons : ∀ (d : Digit) (ds : List Digit) (l : Digit),
        valueOf (d :: (ds ++ [l])) = valueOf (d :: ds) * 10 + l := by
      intro d ds l
      simp [valueOf]
    rw [hcons, ih]
    simp only [lastDigit]
    omega

theorem length_fixedDigits (width n : Nat) : (fixedDigits width n).length = width := by
  induction width generalizing n with
  | zero => rfl
  | succ width ih => simp [fixedDigits, ih]

end ServiceHealth.Number
