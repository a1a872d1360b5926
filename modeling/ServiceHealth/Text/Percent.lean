import ServiceHealth.Number.Radix

/-!
# Percent encoding

A percent sign and two hexadecimal digits stand for one byte. Reading keeps a percent sign
that is not followed by two digits; writing uses capital digits.

## Main definitions

* `Percent.decodeBytes`, `Percent.decode?` — reading; the second wants UTF-8.
* `Percent.encode` — writing, with a choice of the ASCII characters that are encoded.
-/

namespace ServiceHealth.Text.Percent

open Number

/-- The bytes of a text in UTF-8. -/
def bytes (s : String) : List UInt8 := s.toUTF8.data.toList

/-- The value of the digit that a byte stands for. -/
def digitOf? (b : UInt8) : Option Nat := digitIn? 16 (Char.ofNat b.toNat)

/-- The byte that a percent sign and these two bytes stand for. -/
def pairOf? (a b : UInt8) : Option UInt8 := do
  return ((← digitOf? a) * 16 + (← digitOf? b)).toUInt8

/-- The percent sign. -/
def sign : UInt8 := 0x25

/-- The bytes with every percent sign and its two digits replaced by what they stand for. -/
def decodeBytes : List UInt8 → List UInt8
  | b :: c :: d :: rest =>
    match if b = sign then pairOf? c d else none with
    | some e => e :: decodeBytes rest
    | none => b :: decodeBytes (c :: d :: rest)
  | bs => bs

/-- The text that a percent-encoded text stands for, unless its bytes are not UTF-8. -/
def decode? (s : String) : Option String :=
  String.fromUTF8? ⟨(decodeBytes (bytes s)).toArray⟩

/-- A capital hexadecimal digit. -/
def capitalDigit (n : Nat) : Char := (Nat.digitChar n).toUpper

/-- The three characters that stand for a byte. -/
def encodeByte (b : UInt8) : List Char :=
  ['%', capitalDigit (b.toNat / 16), capitalDigit (b.toNat % 16)]

/-- The characters that are always encoded: controls and all outside ASCII. -/
def isControl (c : Char) : Bool := c.toNat < 0x20 || 0x7F ≤ c.toNat

/-- A text with controls, characters outside ASCII and the characters of a set encoded. -/
def encode (set : List Char) (cs : List Char) : List Char :=
  cs.flatMap fun c =>
    if isControl c || set.contains c then (bytes c.toString).flatMap encodeByte else [c]

example : decode? "a%2Fb%zz%" = some "a/b%zz%" := by decide +kernel
example : decode? "%ff" = none := by decide +kernel
example : encode [' '] "é x".toList = "%C3%A9%20x".toList := by decide +kernel

end ServiceHealth.Text.Percent
