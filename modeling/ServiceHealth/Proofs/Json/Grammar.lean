import ServiceHealth.Json.Parser
import ServiceHealth.Proofs.Number.HexDigit

/-!
# The grammar of JSON texts

What a text is as a JSON document, said by the productions of the grammar alone: every choice of
white space, of escapes and of the spelling of numbers is open. A production relates a part of a
document to the characters that may stand for it; nothing here reads or writes.

## Main definitions

* `Literal.Codes`, `Literal.Text`, `Literal.Written` — the characters between the quotes of a
  string, the code points they spell, and the text these stand for.
* `Numeral.Written` — the parts of a number.
* `Written`, `Element` — values, and values between white space.
* `IsDocument` — a text that is one document.
-/

namespace ServiceHealth.Json

open Number

/-- White space, or nothing. -/
def IsSpacing (cs : List Char) : Prop := ∀ c ∈ cs, c = ' ' ∨ c = '\t' ∨ c = '\n' ∨ c = '\r'

/-! ### Strings -/

namespace Literal

/-- The escapes of two letters, the backslash left out, and what they stand for. -/
def shortEscapes : List (Char × Char) :=
  [('"', '"'), ('\\', '\\'), ('/', '/'), ('b', '\x08'), ('f', '\x0c'), ('n', '\n'), ('r', '\r'),
    ('t', '\t')]

/-- The characters between two quotes and the codes that they spell: a character that need not
be escaped spells its code point, and an escape with four digits any code of sixteen bits. -/
inductive Codes : List Char → List Nat → Prop
  | nil : Codes [] []
  | plain {c cs codes} : c ≠ '"' → c ≠ '\\' → 0x20 ≤ c.toNat → Codes cs codes →
      Codes (c :: cs) (c.toNat :: codes)
  | short {e c cs codes} : (e, c) ∈ shortEscapes → Codes cs codes →
      Codes ('\\' :: e :: cs) (c.toNat :: codes)
  | digits {a b c d w x y z cs codes} :
      HexDigit a w → HexDigit b x → HexDigit c y → HexDigit d z → Codes cs codes →
      Codes ('\\' :: 'u' :: a :: b :: c :: d :: cs) ((((w * 16 + x) * 16 + y) * 16 + z) :: codes)

/-- Codes and the text that they stand for: the code point of a character for itself, and a
pair of surrogates for the one character beyond the sixteen bits that they encode. Half a pair
on its own stands for nothing. -/
inductive Text : List Nat → List Char → Prop
  | nil : Text [] []
  | scalar {c codes cs} : Text codes cs → Text (c.toNat :: codes) (c :: cs)
  | pair {high low c codes cs} : 0xD800 ≤ high → high < 0xDC00 → 0xDC00 ≤ low → low < 0xE000 →
      c.toNat = 0x10000 + (high - 0xD800) * 0x400 + (low - 0xDC00) → Text codes cs →
      Text (high :: low :: codes) (c :: cs)

/-- The characters between two quotes write a literal: it spells the text for which their codes
stand, and no text if they stand for none. -/
def Written (l : Literal) (cs : List Char) : Prop :=
  ∃ codes, Codes cs codes ∧ ∀ s : String, l = some s ↔ Text codes s.toList

end Literal

/-! ### Numbers -/

namespace Numeral

/-- The part before the point: zero, or digits that do not begin with zero. -/
inductive WholePart : Nat → List Char → Prop
  | zero : WholePart 0 ['0']
  | positive {d : Digit} {ds : List Digit} : d ≠ 0 →
      WholePart (valueOf (d :: ds)) ((d :: ds).map Digit.char)

/-- The part from the point on, which may be absent, with at least one digit. -/
inductive FractionPart : List Digit → List Char → Prop
  | absent : FractionPart [] []
  | present {d : Digit} {ds : List Digit} :
      FractionPart (d :: ds) ('.' :: (d :: ds).map Digit.char)

/-- The sign of an exponent, which may be absent; `true` is a minus. -/
inductive SignPart : Option Bool → List Char → Prop
  | absent : SignPart none []
  | minus : SignPart (some true) ['-']
  | plus : SignPart (some false) ['+']

/-- The exponent, which may be absent, with a letter of either case and at least one digit. -/
inductive ExponentPart : Option Exponent → List Char → Prop
  | absent : ExponentPart none []
  | small {sign signs d ds} : SignPart sign signs →
      ExponentPart (some ⟨false, sign, d, ds⟩) ('e' :: signs ++ (d :: ds).map Digit.char)
  | capital {sign signs d ds} : SignPart sign signs →
      ExponentPart (some ⟨true, sign, d, ds⟩) ('E' :: signs ++ (d :: ds).map Digit.char)

/-- The characters of a number: a minus or nothing, and its three parts. -/
inductive Written : Numeral → List Char → Prop
  | positive {whole fraction exponent ws fs es} : WholePart whole ws → FractionPart fraction fs →
      ExponentPart exponent es → Written ⟨false, whole, fraction, exponent⟩ (ws ++ fs ++ es)
  | negative {whole fraction exponent ws fs es} : WholePart whole ws → FractionPart fraction fs →
      ExponentPart exponent es →
      Written ⟨true, whole, fraction, exponent⟩ ('-' :: (ws ++ fs ++ es))

end Numeral

/-! ### Values -/

mutual

/-- The characters of a value. -/
inductive Written : Json → List Char → Prop
  | null : Written .null ['n', 'u', 'l', 'l']
  | true : Written (.bool Bool.true) ['t', 'r', 'u', 'e']
  | false : Written (.bool Bool.false) ['f', 'a', 'l', 's', 'e']
  | number {n cs} : n.Written cs → Written (.number n) cs
  | string {l cs} : Literal.Written l cs → Written (.string l) ('"' :: cs ++ ['"'])
  | emptyArray {ws} : IsSpacing ws → Written (.array []) ('[' :: ws ++ [']'])
  | array {items cs} : Items items cs → Written (.array items) ('[' :: cs ++ [']'])
  | emptyObject {ws} : IsSpacing ws → Written (.object []) ('{' :: ws ++ ['}'])
  | object {fields cs} : Fields fields cs → Written (.object fields) ('{' :: cs ++ ['}'])

/-- A value between white space. -/
inductive Element : Json → List Char → Prop
  | mk {v ws cs ws'} : IsSpacing ws → Written v cs → IsSpacing ws' → Element v (ws ++ cs ++ ws')

/-- One or more values with commas between them. -/
inductive Items : List Json → List Char → Prop
  | last {v cs} : Element v cs → Items [v] cs
  | more {v vs cs cs'} : Element v cs → Items vs cs' → Items (v :: vs) (cs ++ ',' :: cs')

/-- A key between white space, a colon and a value. -/
inductive Field : Literal × Json → List Char → Prop
  | mk {k v ws ks ws' cs} : IsSpacing ws → Literal.Written k ks → IsSpacing ws' → Element v cs →
      Field (k, v) (ws ++ '"' :: ks ++ '"' :: ws' ++ ':' :: cs)

/-- One or more fields with commas between them. -/
inductive Fields : List (Literal × Json) → List Char → Prop
  | last {f cs} : Field f cs → Fields [f] cs
  | more {f fs cs cs'} : Field f cs → Fields fs cs' → Fields (f :: fs) (cs ++ ',' :: cs')

end

/-- The text is exactly one document. -/
def IsDocument (j : Json) (text : String) : Prop := Element j text.toList

end ServiceHealth.Json
