/-!
# Positions in a YAML text

A cursor is what is left of a text together with the place it begins at. Line breaks are a
line feed, a carriage return, both in this order, and the three Unicode breaks; a break is
read as a line feed, except for the line and paragraph separators, which stand for
themselves.

## Main definitions

* `isBreak`, `isBlank`, `isWordChar`, `isAllowed` — classes of characters.
* `Cursor`, `Cursor.skip`, `Cursor.skipBreak` — moving over a character and over a break.
* `Cursor.breakText` — the text that a break is read as.
-/

namespace ServiceHealth.Yaml

/-- A character that breaks a line. -/
def isBreak (c : Char) : Bool :=
  c == '\n' || c == '\r' || c == '\u0085' || c == '\u2028' || c == '\u2029'

/-- A space or a tab. -/
def isBlank (c : Char) : Bool := c == ' ' || c == '\t'

/-- A character of the names of anchors, tag handles and directives. -/
def isWordChar (c : Char) : Bool := c.isAlphanum || c == '_' || c == '-'

/-- A character that may stand in a YAML text at all. -/
def isAllowed (c : Char) : Bool :=
  let n := c.toNat
  n == 0x9 || n == 0xA || n == 0xD || (0x20 ≤ n && n ≤ 0x7E) || n == 0x85 ||
    (0xA0 ≤ n && n ≤ 0xD7FF) || (0xE000 ≤ n && n ≤ 0xFFFD) || 0x10000 ≤ n

/-- The end of the text or a line break. -/
def endsLine : Option Char → Bool
  | none => true
  | some c => isBreak c

/-- The end of the text, a line break, a space or a tab. -/
def endsWord : Option Char → Bool
  | none => true
  | some c => isBreak c || isBlank c

/-- What is left of a text, and the place it begins at. -/
structure Cursor where
  rest : List Char
  index : Nat := 0
  line : Nat := 0
  column : Nat := 0
  deriving Repr, Inhabited

namespace Cursor

/-- The character `n` places further on. -/
def at? (c : Cursor) (n : Nat) : Option Char := c.rest[n]?

/-- The next character. -/
def next? (c : Cursor) : Option Char := c.rest.head?

/-- The next character is `x`. -/
def isAt (c : Cursor) (x : Char) : Bool := c.rest.head? == some x

/-- Past the next character, which is no break. -/
def skip (c : Cursor) : Cursor := ⟨c.rest.tail, c.index + 1, c.line, c.column + 1⟩

/-- Past several characters, none of them a break. -/
def skipMany (c : Cursor) (n : Nat) : Cursor :=
  ⟨c.rest.drop n, c.index + n, c.line, c.column + n⟩

/-- Past the characters of a class that lie ahead on the line. -/
def skipWhile (c : Cursor) (p : Char → Bool) : Cursor :=
  c.skipMany (c.rest.takeWhile p).length

/-- Past the next break. -/
def skipBreak (c : Cursor) : Cursor :=
  match c.rest with
  | '\r' :: '\n' :: cs => ⟨cs, c.index + 2, c.line + 1, 0⟩
  | _ :: cs => ⟨cs, c.index + 1, c.line + 1, 0⟩
  | [] => c

/-- The text that the next break is read as; nothing where there is no break. -/
def breakText (c : Cursor) : List Char :=
  match c.rest with
  | x :: _ =>
    if x = '\u2028' ∨ x = '\u2029' then [x]
    else if isBreak x then ['\n']
    else []
  | [] => []

/-- Past the next break, if there is one. -/
def skipBreak? (c : Cursor) : Cursor :=
  match c.rest with
  | x :: _ => if isBreak x then c.skipBreak else c
  | [] => c

/-- Past spaces, tabs and a comment up to the end of the line; `none` if something else is
left on the line. -/
def endOfLine? (c : Cursor) : Option Cursor :=
  let c := c.skipWhile isBlank
  let c := if c.isAt '#' then c.skipWhile fun x => !isBreak x else c
  if endsLine c.next? then some c else none

/-- A line begins here with a marker of a document's start or end. -/
def atDocumentMarker (c : Cursor) : Bool :=
  c.column == 0 &&
    (c.rest.take 3 == ['-', '-', '-'] || c.rest.take 3 == ['.', '.', '.']) &&
    endsWord (c.at? 3)

end Cursor

end ServiceHealth.Yaml
