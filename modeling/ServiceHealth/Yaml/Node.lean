import ServiceHealth.Yaml.Token.Lexer

/-!
# YAML documents

A document is a tree of scalars, sequences, mappings and aliases. An alias refers to the
number of an anchor: the first anchor name of a document has number zero, a new name the next
number, and a name used again takes the number that the next new name would take. The node of
a number is the last one in the text that was given it.

## Main definitions

* `Node` — the nodes of a document.
* `Node.ofTokens?` — the only document of a sequence of tokens.
* `Document`, `Document.parse?` — a document with its anchored nodes.
* `Document.follow` — the node that an alias stands for.
-/

namespace ServiceHealth.Yaml

/-- A node of a document, with the number of its anchor if it has one. -/
inductive Node
  | scalar (anchor : Option Nat) (s : Scalar)
  | sequence (anchor : Option Nat) (items : List Node)
  | mapping (anchor : Option Nat) (entries : List (Node × Node))
  | alias (number : Nat)
  deriving Repr, Inhabited

/-- The scalar of an empty value. -/
def Node.empty : Node := .scalar none ⟨"", .plain, none⟩

/-! ### Directives -/

/-- The tag handles that every document knows. -/
def standardHandles : List (String × String) := [("!", "!"), ("!!", "tag:yaml.org,2002:")]

/-- The tag handles that the directives of a document define, and the tokens after them. A
document has at most one version, 1.1 or 1.2, and defines a handle at most once. -/
def directives? (versioned : Bool) (handles : List (String × String)) :
    List Token → Option (List (String × String) × List Token)
  | .versionDirective major minor :: ts =>
    if !versioned && major = 1 && (minor = 1 || minor = 2) then directives? true handles ts
    else none
  | .tagDirective handle start :: ts =>
    if handles.any (·.1 == handle) then none
    else directives? versioned (handles ++ [(handle, start)]) ts
  | ts => some (handles, ts)

/-- The full tag of a handle and a suffix. -/
def fullTag? (handles : List (String × String)) (handle suffix : String) : Option String :=
  if handle = "" then some suffix
  else ((handles ++ standardHandles).find? (·.1 == handle)).map (·.2 ++ suffix)

/-! ### Nodes -/

/-- The tokens that are left, and the numbers of the anchor names so far. -/
structure Feed where
  tokens : List Token
  names : List (String × Nat) := []

namespace Feed

/-- The next token. -/
def next? (f : Feed) : Option Token := f.tokens.head?

/-- Past the next token. -/
def skip (f : Feed) : Feed := { f with tokens := f.tokens.tail }

/-- The number of a new anchor, which is the number of names so far. -/
def anchor (f : Feed) (name : String) : Nat × Feed :=
  let number := f.names.length
  let others := f.names.filter (·.1 != name)
  (number, { f with names := (name, number) :: others })

/-- The next token is one of these; the end of the text is none of them. -/
def nextIn (f : Feed) (ts : List Token) : Bool := f.next?.any ts.contains

/-- The anchor and the tag in front of a node, in either order. -/
def properties? (handles : List (String × String)) (f : Feed) :
    Option (Option Nat × Option String × Feed) := do
  match f.tokens with
  | .anchor a :: .tag h s :: ts =>
    let tag ← fullTag? handles h s
    let (n, f) := { f with tokens := ts }.anchor a
    return (some n, some tag, f)
  | .tag h s :: .anchor a :: ts =>
    let tag ← fullTag? handles h s
    let (n, f) := { f with tokens := ts }.anchor a
    return (some n, some tag, f)
  | .anchor a :: ts =>
    let (n, f) := { f with tokens := ts }.anchor a
    return (some n, none, f)
  | .tag h s :: ts => return (none, some (← fullTag? handles h s), { f with tokens := ts })
  | _ => return (none, none, f)

end Feed

/-- The tokens after which an entry of a block collection is empty. -/
def blockStops : List Token := [.key, .value, .blockEnd]

mutual

/-- The node at the front of the tokens. In block style block collections may stand there,
and where a mapping leads to it also entries of a sequence without indentation. -/
def Feed.node? (handles : List (String × String)) :
    (fuel : Nat) → (block indentless : Bool) → Feed → Option (Node × Feed)
  | 0, _, _, _ => none
  | fuel + 1, block, indentless, f => do
    if let some (.alias name) := f.next? then
      return (.alias (← f.names.lookup name), f.skip)
    let (anchor, tag, f) ← f.properties? handles
    match f.next? with
    | some (.scalar text style) =>
      return (.scalar anchor ⟨text, style, tag.filter (· ≠ "!")⟩, f.skip)
    | some .flowSequenceStart =>
      let (items, f) ← f.skip.flowItems? handles fuel true
      return (.sequence anchor items, f)
    | some .flowMappingStart =>
      let (entries, f) ← f.skip.flowEntries? handles fuel true
      return (.mapping anchor entries, f)
    | t =>
      if indentless && t = some .blockEntry then
        let (items, f) ← f.indentlessItems? handles fuel
        return (.sequence anchor items, f)
      else if block && t = some .blockSequenceStart then
        let (items, f) ← f.skip.blockItems? handles fuel
        return (.sequence anchor items, f)
      else if block && t = some .blockMappingStart then
        let (entries, f) ← f.skip.blockEntries? handles fuel
        return (.mapping anchor entries, f)
      else if anchor.isSome || tag.isSome then
        return (.scalar anchor ⟨"", .plain, tag⟩, f)
      else none

/-- A node, or an empty value before one of these tokens. -/
def Feed.nodeOrEmpty? (handles : List (String × String)) :
    (fuel : Nat) → (block indentless : Bool) → (stops : List Token) → Feed → Option (Node × Feed)
  | 0, _, _, _, _ => none
  | fuel + 1, block, indentless, stops, f =>
    if f.nextIn stops then some (.empty, f) else f.node? handles fuel block indentless

/-- The items of a block sequence up to its end. -/
def Feed.blockItems? (handles : List (String × String)) :
    (fuel : Nat) → Feed → Option (List Node × Feed)
  | 0, _ => none
  | fuel + 1, f => do
    match f.next? with
    | some .blockEntry =>
      let (item, f) ← f.skip.nodeOrEmpty? handles fuel true false [.blockEntry, .blockEnd]
      let (items, f) ← f.blockItems? handles fuel
      return (item :: items, f)
    | some .blockEnd => return ([], f.skip)
    | _ => none

/-- The items of a sequence without indentation. -/
def Feed.indentlessItems? (handles : List (String × String)) :
    (fuel : Nat) → Feed → Option (List Node × Feed)
  | 0, _ => none
  | fuel + 1, f => do
    match f.next? with
    | some .blockEntry =>
      let (item, f) ← f.skip.nodeOrEmpty? handles fuel true false (.blockEntry :: blockStops)
      let (items, f) ← f.indentlessItems? handles fuel
      return (item :: items, f)
    | _ => return ([], f)

/-- The entries of a block mapping up to its end. -/
def Feed.blockEntries? (handles : List (String × String)) :
    (fuel : Nat) → Feed → Option (List (Node × Node) × Feed)
  | 0, _ => none
  | fuel + 1, f => do
    match f.next? with
    | some .key =>
      let (k, f) ← f.skip.nodeOrEmpty? handles fuel true true blockStops
      let (v, f) ←
        if f.nextIn [.value] then f.skip.nodeOrEmpty? handles fuel true true blockStops
        else some (.empty, f)
      let (entries, f) ← f.blockEntries? handles fuel
      return ((k, v) :: entries, f)
    | some .blockEnd => return ([], f.skip)
    | _ => none

/-- The value that follows a key in a flow collection, empty if there is none. -/
def Feed.flowValue? (handles : List (String × String)) :
    (fuel : Nat) → (stops : List Token) → Feed → Option (Node × Feed)
  | 0, _, _ => none
  | fuel + 1, stops, f =>
    if f.nextIn [.value] then f.skip.nodeOrEmpty? handles fuel false false stops
    else some (.empty, f)

/-- The items of a flow sequence up to its end. An item may be a mapping of one entry; where
its key is empty, the token after the mark of the key is passed over. -/
def Feed.flowItems? (handles : List (String × String)) :
    (fuel : Nat) → (first : Bool) → Feed → Option (List Node × Feed)
  | 0, _, _ => none
  | fuel + 1, first, f => do
    if f.nextIn [.flowSequenceEnd] then return ([], f.skip)
    let f ← if first then some f else if f.nextIn [.flowEntry] then some f.skip else none
    match f.next? with
    | some .flowSequenceEnd => return ([], f.skip)
    | some .key =>
      let f := f.skip
      let (k, f) ←
        if f.nextIn [.value, .flowEntry, .flowSequenceEnd] then some (.empty, f.skip)
        else f.node? handles fuel false false
      let (v, f) ← f.flowValue? handles fuel [.flowEntry, .flowSequenceEnd]
      let (items, f) ← f.flowItems? handles fuel false
      return (.mapping none [(k, v)] :: items, f)
    | _ =>
      let (item, f) ← f.node? handles fuel false false
      let (items, f) ← f.flowItems? handles fuel false
      return (item :: items, f)

/-- The entries of a flow mapping up to its end. -/
def Feed.flowEntries? (handles : List (String × String)) :
    (fuel : Nat) → (first : Bool) → Feed → Option (List (Node × Node) × Feed)
  | 0, _, _ => none
  | fuel + 1, first, f => do
    if f.nextIn [.flowMappingEnd] then return ([], f.skip)
    let f ← if first then some f else if f.nextIn [.flowEntry] then some f.skip else none
    match f.next? with
    | some .flowMappingEnd => return ([], f.skip)
    | some .key =>
      let (k, f) ← f.skip.nodeOrEmpty? handles fuel false false
        [.value, .flowEntry, .flowMappingEnd]
      let (v, f) ← f.flowValue? handles fuel [.flowEntry, .flowMappingEnd]
      let (entries, f) ← f.flowEntries? handles fuel false
      return ((k, v) :: entries, f)
    | _ =>
      let (k, f) ← f.node? handles fuel false false
      let (entries, f) ← f.flowEntries? handles fuel false
      return ((k, .empty) :: entries, f)

end

/-- The tokens that end a document or begin the next one. -/
def Token.boundsDocument : Token → Bool
  | .versionDirective .. | .tagDirective .. | .documentStart | .documentEnd => true
  | _ => false

/-- The only document of a sequence of tokens; a text without one is an empty value. -/
def Node.ofTokens? (ts : List Token) : Option Node := do
  if ts.isEmpty then return .empty
  let (handles, rest) ← directives? false [] ts
  let explicit := rest.head? = some .documentStart
  if !explicit && rest.length ≠ ts.length then none
  let content := if explicit then rest.tail else rest
  let fuel := 3 * content.length + 3
  let (root, f) ←
    if explicit && content.head?.all Token.boundsDocument then
      some (Node.empty, ({ tokens := content } : Feed))
    else ({ tokens := content } : Feed).node? handles fuel true false
  if f.tokens.all (· = .documentEnd) then return root else none

/-! ### Aliases -/

mutual

/-- The anchored nodes of a tree with their numbers, in the order of the text. -/
def Node.anchored : Node → List (Nat × Node)
  | .scalar a s => (a.map (·, .scalar a s)).toList
  | .sequence a items => (a.map (·, .sequence a items)).toList ++ Node.anchoredItems items
  | .mapping a entries => (a.map (·, .mapping a entries)).toList ++ Node.anchoredEntries entries
  | .alias _ => []

/-- The anchored nodes of several trees. -/
def Node.anchoredItems : List Node → List (Nat × Node)
  | [] => []
  | n :: ns => n.anchored ++ Node.anchoredItems ns

/-- The anchored nodes of several entries. -/
def Node.anchoredEntries : List (Node × Node) → List (Nat × Node)
  | [] => []
  | (k, v) :: es => k.anchored ++ v.anchored ++ Node.anchoredEntries es

end

/-- A node of a document, together with the anchored nodes of the document, last ones
first. -/
structure Document where
  anchors : List (Nat × Node)
  node : Node

namespace Document

/-- The document that a text holds. -/
def parse? (s : String) : Option Document := do
  let root ← Node.ofTokens? (← Token.scan? s)
  return ⟨root.anchored.reverse, root⟩

/-- Another node of the same document. -/
def withNode (d : Document) (n : Node) : Document := ⟨d.anchors, n⟩

/-- The node itself, or the one that an alias stands for. -/
def follow (d : Document) : Node :=
  match d.node with
  | .alias number => (d.anchors.lookup number).getD .empty
  | n => n

end Document

end ServiceHealth.Yaml
