import ServiceHealth.Number.Radix

/-!
# JSON string literals

The characters between the quotes of a JSON string spell UTF-16 code units or characters. A
literal whose escapes leave half of a surrogate pair on its own is well formed but spells no
text.

## Main definitions

* `Literal` — the text a literal spells, `none` for one that spells no text.
* `Literal.ofChars?` — reading the characters between the quotes.
* `Literal.escape`, `Literal.toChars` — the shortest spelling of a text: two-letter escapes
  where there are any, `\u00xx` for other control characters, all else as it is.
-/

namespace ServiceHealth.Json

/-- The text that a string literal spells; `none` when an escape stands for half of a
surrogate pair. -/
abbrev Literal := Option String

namespace Literal

/-- The character that a two-letter escape stands for. -/
def shortEscape? : Char → Option Char
  | '"' => some '"'
  | '\\' => some '\\'
  | '/' => some '/'
  | 'b' => some '\x08'
  | 'f' => some '\x0c'
  | 'n' => some '\n'
  | 'r' => some '\r'
  | 't' => some '\t'
  | _ => none

/-- The code points that the characters between the quotes spell, halves of surrogate pairs
apart; `none` for a malformed escape, a bare quote or a control character. -/
def codes? : List Char → Option (List Nat)
  | [] => some []
  | '\\' :: 'u' :: a :: b :: c :: d :: cs => do
    let n ← Number.numberIn? 16 [a, b, c, d]
    return n :: (← codes? cs)
  | '\\' :: e :: cs => do
    let c ← shortEscape? e
    return c.toNat :: (← codes? cs)
  | c :: cs =>
    if c = '\\' ∨ c = '"' ∨ c.toNat < 0x20 then none
    else (codes? cs).map (c.toNat :: ·)

/-- Whether a code is the first half of a surrogate pair. -/
def isHigh (n : Nat) : Bool := 0xD800 ≤ n && n < 0xDC00

/-- Whether a code is the second half of a surrogate pair. -/
def isLow (n : Nat) : Bool := 0xDC00 ≤ n && n < 0xE000

/-- The characters of a sequence of codes, each first half joined with the second half that
follows it; `none` when a half stands alone. -/
def join? : List Nat → Option (List Char)
  | [] => some []
  | n :: ns =>
    if isHigh n then
      match ns with
      | m :: ns' =>
        if isLow m then
          (join? ns').map (Char.ofNat (0x10000 + (n - 0xD800) * 0x400 + (m - 0xDC00)) :: ·)
        else none
      | [] => none
    else if isLow n then none
    else (join? ns).map (Char.ofNat n :: ·)

/-- The literal between two quotes. -/
def ofChars? (cs : List Char) : Option Literal :=
  (codes? cs).map fun codes => (join? codes).map String.ofList

/-! ### Writing -/

/-- A lower-case hexadecimal digit. -/
def hexDigit (n : Nat) : Char := Nat.digitChar n

/-- The spelling of one character. -/
def escapeChar (c : Char) : List Char :=
  if c = '"' then ['\\', '"']
  else if c = '\\' then ['\\', '\\']
  else if c = '\x08' then ['\\', 'b']
  else if c = '\x0c' then ['\\', 'f']
  else if c = '\n' then ['\\', 'n']
  else if c = '\r' then ['\\', 'r']
  else if c = '\t' then ['\\', 't']
  else if c.toNat < 0x20 then
    ['\\', 'u', '0', '0', hexDigit (c.toNat / 16), hexDigit (c.toNat % 16)]
  else [c]

/-- The spelling of a text between the quotes. -/
def escape (s : List Char) : List Char := s.flatMap escapeChar

/-- The spelling of a literal between the quotes; one that spells no text is written as a
lone half of a surrogate pair. -/
def toChars : Literal → List Char
  | some s => escape s.toList
  | none => ['\\', 'u', 'd', '8', '0', '0']

example : ofChars? "\\ud83d\\ude00\\n".toList = some (some "😀\n") := by decide +kernel
example : ofChars? "\\ud83d-".toList = some none := by decide +kernel
example : ofChars? "\\q".toList = none := by decide +kernel

end Literal

end ServiceHealth.Json
