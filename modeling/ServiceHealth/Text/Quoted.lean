import ServiceHealth.Text.Printable

/-!
# Quoted text

A text between double quotes in which every character can be seen: quotes, backslashes and
some controls are written after a backslash, and every other character that is not printable
by its code point.

## Main definitions

* `quoted` — a text between quotes.
-/

namespace ServiceHealth.Text

/-- A character between quotes. -/
def quotedChar (c : Char) : List Char :=
  if c = '"' then ['\\', '"']
  else if c = '\\' then ['\\', '\\']
  else if c = '\n' then ['\\', 'n']
  else if c = '\x0d' then ['\\', 'r']
  else if c = '\t' then ['\\', 't']
  else if c = '\x00' then ['\\', '0']
  else if isPrintable c then [c]
  else ['\\', 'u', '{'] ++ Nat.toDigits 16 c.toNat ++ ['}']

/-- A text between quotes. -/
def quoted (s : String) : String := String.ofList ('"' :: s.toList.flatMap quotedChar ++ ['"'])

example : quoted "a\t\"é\x01" = "\"a\\t\\\"é\\u\x7b1\x7d\"" := by decide +kernel

end ServiceHealth.Text
