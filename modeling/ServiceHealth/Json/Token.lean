import ServiceHealth.Json.Basic

/-!
# The tokens of a JSON text

A text is read one character at a time: white space separates, brackets and commas are tokens
of their own, a run of other characters outside quotes is one word, and quotes enclose a
literal. The four white space characters are space, tab, line feed and carriage return.

## Main definitions

* `Token`, `Token.toChars` — tokens and their shortest spelling.
* `Token.scan` — the tokens of a text, or `none` for a malformed word, a malformed literal or
  a literal without its closing quote.
-/

namespace ServiceHealth.Json

/-- A token of a JSON text. -/
inductive Token
  | openBrace | closeBrace | openBracket | closeBracket | colon | comma
  | null
  | bool (b : Bool)
  | number (n : Numeral)
  | string (s : Literal)
  deriving DecidableEq, Repr

/-- The white space of JSON. -/
def isSpace (c : Char) : Bool := c == ' ' || c == '\t' || c == '\n' || c == '\r'

namespace Token

/-- The token of a character that is a token on its own. -/
def ofPunctuation? : Char → Option Token
  | '{' => some openBrace
  | '}' => some closeBrace
  | '[' => some openBracket
  | ']' => some closeBracket
  | ':' => some colon
  | ',' => some comma
  | _ => none

/-- The token of a word. -/
def ofWord? (cs : List Char) : Option Token :=
  if cs = "null".toList then some null
  else if cs = "true".toList then some (bool true)
  else if cs = "false".toList then some (bool false)
  else (Numeral.ofChars? cs).map number

/-- The shortest spelling of a token. -/
def toChars : Token → List Char
  | openBrace => ['{']
  | closeBrace => ['}']
  | openBracket => ['[']
  | closeBracket => [']']
  | colon => [':']
  | comma => [',']
  | null => "null".toList
  | bool true => "true".toList
  | bool false => "false".toList
  | number n => n.toChars
  | string s => '"' :: Literal.toChars s ++ ['"']

/-- Where reading stands within a text: between tokens, in a word, or in a literal, the last
character of which may be a backslash that escapes the next one. What was read of the word
or literal is kept backwards. -/
inductive Place
  | between
  | word (read : List Char)
  | literal (read : List Char) (escaped : Bool)

/-- A reading position: the tokens so far, backwards, and the place. -/
structure Scan where
  tokens : List Token
  place : Place

namespace Scan

/-- The start of a text. -/
def start : Scan := ⟨[], .between⟩

/-- A word ends, if there is one. -/
def endWord (s : Scan) : Option Scan :=
  match s.place with
  | .word read => (ofWord? read.reverse).map fun t => ⟨t :: s.tokens, .between⟩
  | _ => some s

/-- One character outside quotes. -/
def stepOutside (s : Scan) (c : Char) : Option Scan :=
  if isSpace c then s.endWord
  else if c = '"' then s.endWord.map fun s => ⟨s.tokens, .literal [] false⟩
  else
    match ofPunctuation? c, s.place with
    | some t, _ => s.endWord.map fun s => ⟨t :: s.tokens, .between⟩
    | none, .word read => some ⟨s.tokens, .word (c :: read)⟩
    | none, _ => some ⟨s.tokens, .word [c]⟩

/-- One character. -/
def step (s : Scan) (c : Char) : Option Scan :=
  match s.place with
  | .literal read true => some ⟨s.tokens, .literal (c :: read) false⟩
  | .literal read false =>
    if c = '"' then
      (Literal.ofChars? read.reverse).map fun l => ⟨.string l :: s.tokens, .between⟩
    else some ⟨s.tokens, .literal (c :: read) (c = '\\')⟩
  | _ => s.stepOutside c

/-- The end of the text. -/
def finish (s : Scan) : Option (List Token) :=
  match s.place with
  | .literal .. => none
  | _ => s.endWord.map fun s => s.tokens.reverse

end Scan

/-- The tokens of a text. -/
def scan (cs : List Char) : Option (List Token) := do
  (← cs.foldlM Scan.step Scan.start).finish

example : scan "[1 ,\"a\\\"\"]".toList =
    some [openBracket, number (.ofNat 1), comma, string (some "a\""), closeBracket] := by
  decide +kernel

end Token

end ServiceHealth.Json
