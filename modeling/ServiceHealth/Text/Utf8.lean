/-!
# UTF-8 with replacement

Bytes are read as UTF-8. Where they are malformed, the longest prefix that could still begin
a character, or else a single byte, is replaced by one U+FFFD, and reading goes on behind it.

## Main definitions

* `Utf8.Pending` — a character that has begun: its bits, and what its next byte may be.
* `Utf8.decode` — the characters of a sequence of bytes.
-/

namespace ServiceHealth.Text.Utf8

/-- The character that stands for malformed bytes. -/
def replacement : Char := '\ufffd'

/-- A character whose first bytes have been read: their bits, how many bytes it still needs
besides the next one, and the range of the next byte. -/
structure Pending where
  bits : Nat
  further : Nat
  low : UInt8 := 0x80
  high : UInt8 := 0xBF
  deriving DecidableEq, Repr

/-- The first byte of a character: the characters that it completes, and the character that
it begins. The second byte is restricted where an overlong form, a surrogate or a number past
U+10FFFF would begin. -/
def first (b : UInt8) : List Char × Option Pending :=
  if b < 0x80 then ([Char.ofNat b.toNat], none)
  else if b < 0xC2 then ([replacement], none)
  else if b < 0xE0 then ([], some { bits := b.toNat - 0xC0, further := 0 })
  else if b < 0xF0 then
    ([], some {
      bits := b.toNat - 0xE0, further := 1
      low := if b = 0xE0 then 0xA0 else 0x80
      high := if b = 0xED then 0x9F else 0xBF })
  else if b < 0xF5 then
    ([], some {
      bits := b.toNat - 0xF0, further := 2
      low := if b = 0xF0 then 0x90 else 0x80
      high := if b = 0xF4 then 0x8F else 0xBF })
  else ([replacement], none)

/-- One byte: the characters that it completes, and the character that is begun after it. -/
def step (p : Option Pending) (b : UInt8) : List Char × Option Pending :=
  match p with
  | none => first b
  | some p =>
    if p.low ≤ b ∧ b ≤ p.high then
      let bits := p.bits * 64 + (b.toNat - 0x80)
      match p.further with
      | 0 => ([Char.ofNat bits], none)
      | further + 1 => ([], some { bits, further })
    else (replacement :: (first b).1, (first b).2)

/-- The characters of the bytes that follow what has begun. -/
def decodeFrom : Option Pending → List UInt8 → List Char
  | none, [] => []
  | some _, [] => [replacement]
  | p, b :: bs => (step p b).1 ++ decodeFrom (step p b).2 bs

/-- The characters of a sequence of bytes. -/
def decode (bs : List UInt8) : List Char := decodeFrom none bs

example : decode [0x61, 0xC3, 0xA9, 0xF0, 0x9F, 0x98, 0x80] = ['a', 'é', '😀'] := by
  decide +kernel
example : decode [0xE2, 0x82, 0x41, 0xFF, 0xED, 0xA0, 0x80] =
    [replacement, 'A', replacement, replacement, replacement, replacement] := by
  decide +kernel

end ServiceHealth.Text.Utf8
