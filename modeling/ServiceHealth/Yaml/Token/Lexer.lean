import ServiceHealth.Yaml.Token.Block
import ServiceHealth.Yaml.Token.Plain
import ServiceHealth.Yaml.Token.Property
import ServiceHealth.Yaml.Token.Quoted

/-!
# Finding the tokens of a YAML text

A key in front of a colon is only known as a key when the colon is met. Every place where a
key may begin is therefore remembered, one for each open flow collection and one for the block
around them, and the tokens that announce the key are put in there once its colon follows on
the same line. Indentation opens and closes the collections in block style.

## Main definitions

* `Lexer`, `Lexer.step?` — the state and one token of it.
* `Token.scan?` — the tokens of a text.
-/

namespace ServiceHealth.Yaml

/-- A place where a key may begin: how many tokens precede it, and its position. A key that
stands at the indentation of its block has to be one. -/
structure KeyPlace where
  tokens : Nat
  index : Nat
  line : Nat
  column : Nat
  required : Bool
  deriving Repr, Inhabited

/-- The state of the search for tokens. Tokens are kept backwards with their number. The
column of the innermost block collection is `-1` outside of any; those around it follow. The
places of keys are listed from the innermost flow collection outward. -/
structure Lexer where
  cursor : Cursor
  tokens : List Token := []
  count : Nat := 0
  indent : Int := -1
  outer : List Int := []
  places : List (Option KeyPlace) := [none]
  keyAllowed : Bool := true
  deriving Inhabited

namespace Lexer

/-- Inside a flow collection. -/
def inFlow (s : Lexer) : Bool := 1 < s.places.length

/-- One more token. -/
def emit (s : Lexer) (t : Token) : Lexer := { s with tokens := t :: s.tokens, count := s.count + 1 }

/-- A token put in front of the ones after the first `n`. -/
def insert (s : Lexer) (n : Nat) (t : Token) : Lexer :=
  { s with
    tokens := s.tokens.take (s.count - n) ++ t :: s.tokens.drop (s.count - n)
    count := s.count + 1 }

/-- The innermost place of a key is given up, unless it has to be one. -/
def dropPlace? (s : Lexer) : Option Lexer :=
  match s.places with
  | some p :: places => if p.required then none else some { s with places := none :: places }
  | _ => some s

/-- A key may begin here, if keys are allowed here. -/
def savePlace? (s : Lexer) : Option Lexer :=
  if s.keyAllowed then do
    let s ← s.dropPlace?
    let c := s.cursor
    let p : KeyPlace :=
      ⟨s.count, c.index, c.line, c.column, !s.inFlow && s.indent == (c.column : Int)⟩
    return { s with places := some p :: s.places.tail }
  else some s

/-- Places on earlier lines and more than 1024 characters back are given up, unless they have
to be keys. -/
def dropStale? (s : Lexer) : Option Lexer := do
  let places ← s.places.mapM fun place =>
    match place with
    | none => some none
    | some p =>
      if p.line < s.cursor.line ∨ p.index + 1024 < s.cursor.index then
        if p.required then none else some none
      else some (some p)
  return { s with places }

/-- A block collection opens at a column right of the current one; its token goes in front
of the ones after the first `n`. -/
def openBlock (s : Lexer) (column : Nat) (n : Nat) (t : Token) : Lexer :=
  if !s.inFlow && s.indent < (column : Int) then
    { s.insert n t with outer := s.indent :: s.outer, indent := column }
  else s

/-- The block collections right of a column close. -/
def closeTo (column : Int) (s : Lexer) : List Int → Lexer
  | [] => s
  | i :: outer =>
    if s.indent > column then
      closeTo column { s.emit .blockEnd with indent := i, outer := outer } outer
    else s

/-- The block collections right of a column close, in block style. -/
def closeBlocks (s : Lexer) (column : Int) : Lexer :=
  if s.inFlow then s else closeTo column s s.outer

/-- Over spaces, comments and line ends to the next token. Tabs are skipped where no key may
begin. -/
def toToken : (fuel : Nat) → Lexer → Lexer
  | 0, s => s
  | fuel + 1, s =>
    let c := s.cursor
    let c := if c.column = 0 ∧ c.next? = some '\ufeff' then c.skip else c
    let c := c.skipWhile fun x => x == ' ' || (x == '\t' && (s.inFlow || !s.keyAllowed))
    let c := if c.isAt '#' then c.skipWhile fun x => !isBreak x else c
    if c.next?.any isBreak then
      toToken fuel { s with cursor := c.skipBreak, keyAllowed := s.keyAllowed || !s.inFlow }
    else { s with cursor := c }

/-- A token of `n` characters. -/
def advance (s : Lexer) (n : Nat) (t : Token) : Lexer :=
  { s.emit t with cursor := s.cursor.skipMany n }

/-- The end of a directive or a document marker closes all blocks. -/
def atTopLevel? (s : Lexer) : Option Lexer := do
  let s ← (s.closeBlocks (-1)).dropPlace?
  return { s with keyAllowed := false }

/-- A token of one character that begins or continues a block collection at its own column:
allowed only where a key is. -/
def openHere? (s : Lexer) (t : Token) : Option Lexer :=
  if s.inFlow then some s
  else if s.keyAllowed then some (s.openBlock s.cursor.column s.count t)
  else none

/-- An opening bracket: a key may begin at it, and inside it. -/
def flowStart? (s : Lexer) (t : Token) : Option Lexer := do
  let s ← s.savePlace?
  return { s with places := none :: s.places, keyAllowed := true }.advance 1 t

/-- A closing bracket. -/
def flowEnd? (s : Lexer) (t : Token) : Option Lexer := do
  let s ← s.dropPlace?
  return { s with
    places := if s.inFlow then s.places.tail else s.places
    keyAllowed := false }.advance 1 t

/-- A colon: it makes a key of the place remembered, or follows a key that was marked. -/
def value? (s : Lexer) : Option Lexer :=
  match s.places with
  | some p :: places =>
    let s := (s.insert p.tokens .key).openBlock p.column p.tokens .blockMappingStart
    some ({ s with places := none :: places, keyAllowed := false }.advance 1 .value)
  | _ => do
    let s ← s.openHere? .blockMappingStart
    return { s with keyAllowed := !s.inFlow }.advance 1 .value

/-- A token that may be a key, read by `read`, after which none may begin. -/
def content? (s : Lexer) (read : Cursor → Option (Cursor × Token)) : Option Lexer := do
  let s ← s.savePlace?
  let (cursor, t) ← read s.cursor
  return { s.emit t with cursor, keyAllowed := false }

/-- A plain scalar; a key may begin after it when it ended on a line of its own. -/
def plain? (s : Lexer) : Option Lexer := do
  let s ← s.savePlace?
  let (cursor, t, broken) ← s.cursor.plain? s.inFlow (s.indent + 1).toNat
  return { s.emit t with cursor, keyAllowed := broken }

/-- A block scalar. -/
def block? (s : Lexer) (folded : Bool) : Option Lexer := do
  let s ← s.dropPlace?
  let (cursor, t) ← s.cursor.block? folded s.indent
  return { s.emit t with cursor, keyAllowed := true }

/-- The characters that begin no plain scalar, except that some do before others. -/
def isIndicator (c : Char) : Bool := "-?:,[]\x7b\x7d#&*!|>'\"%@\x60".toList.contains c

/-- The token at the cursor, which is at the character `c`. -/
def token? (s : Lexer) (c : Char) : Option Lexer :=
  let cur := s.cursor
  let wordEnds := endsWord (cur.at? 1)
  if cur.column = 0 ∧ c = '%' then do
    let s ← s.atTopLevel?
    let (cursor, t) ← s.cursor.directive?
    return { s.emit t with cursor }
  else if cur.atDocumentMarker then
    s.atTopLevel?.map (·.advance 3 (if c = '-' then .documentStart else .documentEnd))
  else if c = '[' then s.flowStart? .flowSequenceStart
  else if c = '{' then s.flowStart? .flowMappingStart
  else if c = ']' then s.flowEnd? .flowSequenceEnd
  else if c = '}' then s.flowEnd? .flowMappingEnd
  else if c = ',' then
    s.dropPlace?.map fun s => { s with keyAllowed := true }.advance 1 .flowEntry
  else if c = '-' ∧ wordEnds then do
    let s ← (← s.openHere? .blockSequenceStart).dropPlace?
    return { s with keyAllowed := true }.advance 1 .blockEntry
  else if c = '?' ∧ (s.inFlow ∨ wordEnds) then do
    let s ← (← s.openHere? .blockMappingStart).dropPlace?
    return { s with keyAllowed := !s.inFlow }.advance 1 .key
  else if c = ':' ∧ (s.inFlow ∨ wordEnds) then s.value?
  else if c = '*' then s.content? fun c => c.name?.map fun r => (r.1, .alias r.2)
  else if c = '&' then s.content? fun c => c.name?.map fun r => (r.1, .anchor r.2)
  else if c = '!' then s.content? (·.tag? s.inFlow)
  else if c = '|' ∧ !s.inFlow then s.block? false
  else if c = '>' ∧ !s.inFlow then s.block? true
  else if c = '\'' then s.content? (·.quoted? true)
  else if c = '"' then s.content? (·.quoted? false)
  else if !(isIndicator c ∨ isBlank c ∨ isBreak c) ∨ (c = '-' ∧ !(cur.at? 1).any isBlank) ∨
      (!s.inFlow ∧ (c = '?' ∨ c = ':') ∧ !wordEnds) then s.plain?
  else none

/-- All tokens from here on. -/
def run? : (fuel : Nat) → Lexer → Option (List Token)
  | 0, _ => none
  | fuel + 1, s => do
    let s := s.toToken (s.cursor.rest.length + 1)
    let s ← s.dropStale?
    let s := s.closeBlocks s.cursor.column
    match s.cursor.next? with
    | some c => run? fuel (← s.token? c)
    | none =>
      let s ← (s.closeBlocks (-1)).dropPlace?
      return s.tokens.reverse

end Lexer

/-- The tokens of a text. A byte order mark at the start of a line is skipped like a space. -/
def Token.scan? (s : String) : Option (List Token) :=
  let cs := s.toList
  if cs.all isAllowed then Lexer.run? (cs.length + 1) { cursor := { rest := cs } } else none

end ServiceHealth.Yaml
