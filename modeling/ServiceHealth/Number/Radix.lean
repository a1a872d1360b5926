/-!
# Digits in a base up to sixteen

## Main definitions

* `digitIn?` — the value of a digit, letters of either case standing for ten and more.
* `numberIn?` — the number that digits denote.
-/

namespace ServiceHealth.Number

/-- The value of a digit in a base up to sixteen. -/
def digitIn? (base : Nat) (c : Char) : Option Nat :=
  let v :=
    if '0' ≤ c ∧ c ≤ '9' then c.toNat - '0'.toNat
    else if 'a' ≤ c ∧ c ≤ 'f' then c.toNat - 'a'.toNat + 10
    else if 'A' ≤ c ∧ c ≤ 'F' then c.toNat - 'A'.toNat + 10
    else base
  if v < base then some v else none

/-- The number that digits denote, zero for no digits. -/
def numberIn? (base : Nat) (cs : List Char) : Option Nat :=
  cs.foldlM (fun n c => (digitIn? base c).map (n * base + ·)) 0

/-- A digit is smaller than its base. -/
theorem digitIn?_lt {base v : Nat} {c : Char} (h : digitIn? base c = some v) : v < base := by
  simp only [digitIn?, Option.ite_none_right_eq_some] at h
  exact Option.some.inj h.2 ▸ h.1

example : numberIn? 16 "00fF".toList = some 255 := by decide
example : numberIn? 8 ['8'] = none := by decide

end ServiceHealth.Number
