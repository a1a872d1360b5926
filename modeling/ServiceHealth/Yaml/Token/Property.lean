import ServiceHealth.Yaml.Token
import ServiceHealth.Yaml.Cursor
import ServiceHealth.Number.Radix

/-!
# Anchors, aliases, tags and directives

An anchor or alias is a name of word characters. A tag is verbatim in angle brackets, or a
handle between exclamation marks with a suffix; a suffix may hold bytes written with a
percent sign, which have to be UTF-8. A directive fills a line of its own.

## Main definitions

* `Cursor.name?` — the name of an anchor or an alias.
* `Cursor.tag?` — a tag.
* `Cursor.directive?` — a directive.
-/

namespace ServiceHealth.Yaml

namespace Cursor

/-- The characters of a class that lie ahead, and the cursor after them. -/
def span (c : Cursor) (p : Char → Bool) : List Char × Cursor :=
  let cs := c.rest.takeWhile p
  (cs, c.skipMany cs.length)

/-- The name after the mark of an anchor or alias, followed by a space, a line end or one of
a few indicators. -/
def name? (c : Cursor) : Option (Cursor × String) :=
  let (cs, after) := c.skip.span isWordChar
  let ends := endsWord after.next? || after.next?.any ("?:,]\x7d%@\x60".toList.contains ·)
  if cs.isEmpty || !ends then none else some (after, String.ofList cs)

end Cursor

/-! ### Tags -/

/-- A character of a tag, apart from a percent sign; commas and square brackets may stand in
verbatim tags. -/
def isTagChar (verbatim : Bool) (c : Char) : Bool :=
  isWordChar c || ";/?:@&=+$.!~*'()".toList.contains c || (verbatim && ",[]".toList.contains c)

/-- The bytes of characters in which a byte may be written with a percent sign. -/
def tagBytes? : List Char → Option (List UInt8)
  | [] => some []
  | '%' :: a :: b :: cs => do
    let n ← Number.numberIn? 16 [a, b]
    return n.toUInt8 :: (← tagBytes? cs)
  | c :: cs => if c = '%' then none else do
    return (String.singleton c).toUTF8.toList ++ (← tagBytes? cs)

namespace Cursor

/-- The part of a tag at the cursor, with its escapes resolved. -/
def tagPart? (c : Cursor) (verbatim : Bool) : Option (Cursor × String) := do
  let (cs, after) := c.span fun x => isTagChar verbatim x || x == '%'
  return (after, ← String.fromUTF8? ⟨(← tagBytes? cs).toArray⟩)

/-- The handle of a tag: an exclamation mark, word characters, and perhaps another
exclamation mark. -/
def tagHandle? (c : Cursor) : Option (Cursor × List Char) :=
  if c.isAt '!' then
    let (cs, after) := c.skip.span isWordChar
    if after.isAt '!' then some (after.skip, '!' :: cs ++ ['!']) else some (after, '!' :: cs)
  else none

/-- A tag, followed by a space, a line end, or in a flow collection a comma. -/
def tag? (c : Cursor) (flow : Bool) : Option (Cursor × Token) := do
  let (after, handle, suffix) ←
    if c.at? 1 = some '<' then do
      let (after, suffix) ← (c.skipMany 2).tagPart? true
      if suffix.isEmpty || !after.isAt '>' then none
      pure (after.skip, "", suffix)
    else do
      let (after, handle) ← c.tagHandle?
      let (rest, suffix) ← after.tagPart? false
      if handle.length > 1 && handle.getLast? = some '!' then
        if suffix.isEmpty then none
        pure (rest, String.ofList handle, suffix)
      else
        let suffix := String.ofList handle.tail ++ suffix
        pure (if suffix.isEmpty then (rest, "", "!") else (rest, "!", suffix))
  if endsWord after.next? || (flow && after.isAt ',') then
    return (after, .tag handle suffix)
  else none

/-! ### Directives -/

/-- A number of a version: one to nine digits. -/
def versionNumber? (c : Cursor) : Option (Cursor × Nat) :=
  let (cs, after) := c.span Char.isDigit
  if cs.isEmpty || 9 < cs.length then none else some (after, Nat.ofDigitChars 10 cs 0)

/-- A directive and the break after it. -/
def directive? (c : Cursor) : Option (Cursor × Token) := do
  let (name, c) := c.skip.span isWordChar
  if !endsWord c.next? then none
  let c := c.skipWhile isBlank
  let (c, token) ←
    if name = "YAML".toList then do
      let (c, major) ← c.versionNumber?
      if !c.isAt '.' then none
      let (c, minor) ← c.skip.versionNumber?
      pure (c, Token.versionDirective major minor)
    else if name = "TAG".toList then do
      let (c, handle) ← c.tagHandle?
      if handle.getLast? ≠ some '!' || !(c.next?.any isBlank) then none
      let (c, start) ← (c.skipWhile isBlank).tagPart? true
      if start.isEmpty || !endsWord c.next? then none
      pure (c, Token.tagDirective (String.ofList handle) start)
    else none
  return ((← c.endOfLine?).skipBreak?, token)

end Cursor

end ServiceHealth.Yaml
