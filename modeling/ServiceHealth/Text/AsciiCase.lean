/-!
# ASCII case folding

Two texts agree up to ASCII case when folding `A`–`Z` to `a`–`z` makes them equal. Every
other character, a letter of another script included, stands for itself alone.

## Main definitions

* `foldCase` — the folded characters of a text.
* `sameFolded` — equality of the folded texts, an equivalence.
-/

namespace ServiceHealth.Text

/-- The characters of a text with `A`–`Z` folded to `a`–`z`. -/
def foldCase (s : String) : List Char := s.toList.map Char.toLower

/-- Equality up to ASCII case. -/
def sameFolded (s t : String) : Bool := foldCase s == foldCase t

theorem sameFolded_iff {s t : String} : sameFolded s t = true ↔ foldCase s = foldCase t := by
  simp [sameFolded]

example : sameFolded "hEALTHY" "Healthy" = true := by decide
example : sameFolded "ſ" "s" = false := by decide

end ServiceHealth.Text
