import Mathlib.Tactic.IntervalCases
import Mathlib.Tactic.SplitIfs
import ServiceHealth.Number.Radix

/-!
# Hexadecimal digits

A digit of a number in base sixteen may be written in either case. Reading a digit gives its
value whichever case it has, and every value has a digit.

## Main definitions

* `HexDigit` — the digits and their values.
-/

namespace ServiceHealth.Number

/-- A hexadecimal digit in either case, with its value. -/
inductive HexDigit : Char → Nat → Prop
  | decimal {v : Nat} : v < 10 → HexDigit (Char.ofNat (0x30 + v)) v
  | capital {v : Nat} : 10 ≤ v → v < 16 → HexDigit (Char.ofNat (0x41 + (v - 10))) v
  | small {v : Nat} : 10 ≤ v → v < 16 → HexDigit (Char.ofNat (0x61 + (v - 10))) v

/-- A hexadecimal digit is read as its value. -/
theorem HexDigit.digitIn?_eq {c : Char} {v : Nat} (h : HexDigit c v) : digitIn? 16 c = some v := by
  cases h with
  | decimal hv => interval_cases v <;> decide
  | capital hlow hv => interval_cases v <;> decide
  | small hlow hv => interval_cases v <;> decide

/-- What is read as a hexadecimal digit is one. -/
theorem hexDigit_of_digitIn? {c : Char} {v : Nat} (h : digitIn? 16 c = some v) : HexDigit c v := by
  have hle {a b : Char} : a ≤ b ↔ a.toNat ≤ b.toNat := by
    rw [Char.le_def, UInt32.le_iff_toNat_le]
    exact Iff.rfl
  have hchar {w : Nat} (hw : w = c.toNat) : Char.ofNat w = c := by rw [hw, Char.ofNat_toNat]
  simp only [digitIn?, Option.ite_none_right_eq_some, Option.some.injEq, hle, Char.reduceToNat] at h
  obtain ⟨hlt, rfl⟩ := h
  split_ifs at hlt ⊢ with hdecimal hsmall hcapital
  · have hdigit := HexDigit.decimal (v := c.toNat - 48) (by omega)
    rwa [hchar (by omega)] at hdigit
  · have hdigit := HexDigit.small (v := c.toNat - 97 + 10) (by omega) hlt
    rwa [hchar (by omega)] at hdigit
  · have hdigit := HexDigit.capital (v := c.toNat - 65 + 10) (by omega) hlt
    rwa [hchar (by omega)] at hdigit
  · exact absurd hlt (by omega)

/-- A hexadecimal digit has a value below sixteen. -/
theorem HexDigit.lt {c : Char} {v : Nat} (h : HexDigit c v) : v < 16 := digitIn?_lt h.digitIn?_eq

/-- A hexadecimal digit is a letter or a digit. -/
theorem HexDigit.isAlphanum_eq {c : Char} {v : Nat} (h : HexDigit c v) : c.isAlphanum = true := by
  cases h with
  | decimal hv => interval_cases v <;> decide
  | capital hlow hv => interval_cases v <;> decide
  | small hlow hv => interval_cases v <;> decide

/-- A hexadecimal digit is none of the characters that are neither letters nor digits. -/
theorem HexDigit.ne_of_not_isAlphanum {c d : Char} {v : Nat} (h : HexDigit c v)
    (hd : d.isAlphanum = false) : c ≠ d := by
  rintro rfl
  rw [h.isAlphanum_eq] at hd
  cases hd

/-- A hexadecimal digit is a character of one byte. -/
theorem HexDigit.toNat_lt {c : Char} {v : Nat} (h : HexDigit c v) : c.toNat < 0x80 := by
  cases h with
  | decimal hv => interval_cases v <;> decide
  | capital hlow hv => interval_cases v <;> decide
  | small hlow hv => interval_cases v <;> decide

/-- Numbers below sixteen are written as hexadecimal digits. -/
theorem hexDigit_digitChar {v : Nat} (hv : v < 16) : HexDigit (Nat.digitChar v) v := by
  by_cases hten : v < 10
  · have h : Nat.digitChar v = Char.ofNat (0x30 + v) := by interval_cases v <;> decide
    exact h ▸ .decimal hten
  · have hlow : 10 ≤ v := Nat.le_of_not_lt hten
    have h : Nat.digitChar v = Char.ofNat (0x61 + (v - 10)) := by
      interval_cases v <;> decide
    exact h ▸ .small hlow hv

end ServiceHealth.Number
