/-!
# Blank text

The characters with the Unicode property `White_Space`, and trimming by them. A text is
blank when every character of it has the property.

## Main definitions

* `isBlankChar` — the property, as the ranges of the standard.
* `isBlank` — a text of blank characters only; the empty text is blank.
-/

namespace ServiceHealth.Text

/-- The closed ranges of code points with the property `White_Space`. -/
def blankRanges : List (Nat × Nat) :=
  [(0x9, 0xD), (0x20, 0x20), (0x85, 0x85), (0xA0, 0xA0), (0x1680, 0x1680),
   (0x2000, 0x200A), (0x2028, 0x2029), (0x202F, 0x202F), (0x205F, 0x205F),
   (0x3000, 0x3000)]

/-- A character with the property `White_Space`. -/
def isBlankChar (c : Char) : Bool :=
  blankRanges.any fun r => r.1 ≤ c.toNat && c.toNat ≤ r.2

/-- A text that trimming leaves empty: blank characters only. -/
def isBlank (s : String) : Bool := s.toList.all isBlankChar

example : isBlank "\u00a0\u3000\t" = true := by decide
example : isBlank "\u200b" = false := by decide

end ServiceHealth.Text
