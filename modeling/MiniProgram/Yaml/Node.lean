import MiniProgram.Yaml.Lexer

/-!
The nodes of a YAML document and their construction from tokens.

Only the first document of a stream is read, and what follows its root node is not looked at. An
anchor names the node it stands at from there on; a reference leads to the anchor by its number.
-/

namespace MiniProgram

namespace Yaml

/-- What every node has: the line it starts on, its tag as written, in short form and empty if there
is none, and the number of its anchor. -/
structure Header where
  line : Nat
  tag : Text
  anchor : Option Nat
deriving DecidableEq, Repr

/-- A node of a document. -/
inductive Node where
  | scalar (header : Header) (style : Style) (text : Text)
  | sequence (header : Header) (items : List Node)
  | mapping (header : Header) (entries : List (Node × Node))
  | reference (line : Nat) (name : Text) (anchor : Nat)
deriving Repr

namespace Node

/-- The line a node starts on. -/
def line : Node → Nat
  | scalar h _ _ | sequence h _ | mapping h _ => h.line
  | reference line _ _ => line

/-- The text of a scalar, the name of a reference; collections have none. -/
def text : Node → Text
  | scalar _ _ t => t
  | reference _ name _ => name
  | _ => []

/-- Whether two nodes are of the same kind. -/
def sameKind : Node → Node → Bool
  | scalar .., scalar .. | sequence .., sequence .. | mapping .., mapping ..
  | reference .., reference .. =>
    true
  | _, _ => false

/-- The node for which nothing is written. -/
def absent (line : Nat) : Node := scalar ⟨line, [], none⟩ .plain []

mutual

/-- The number of nodes in a node, itself included. -/
def size : Node → Nat
  | scalar .. | reference .. => 1
  | sequence _ items => sizeOfItems items + 1
  | mapping _ entries => sizeOfEntries entries + 1

/-- The number of nodes in some nodes. -/
def sizeOfItems : List Node → Nat
  | [] => 0
  | n :: ns => size n + sizeOfItems ns

/-- The number of nodes in some entries. -/
def sizeOfEntries : List (Node × Node) → Nat
  | [] => 0
  | (k, v) :: es => size k + size v + sizeOfEntries es

end

mutual

/-- The node with an anchor. -/
def find? (anchor : Nat) : Node → Option Node
  | scalar h s t => if h.anchor = some anchor then some (scalar h s t) else none
  | sequence h items =>
    if h.anchor = some anchor then some (sequence h items) else findIn? anchor items
  | mapping h entries =>
    if h.anchor = some anchor then some (mapping h entries) else findInEntries? anchor entries
  | reference .. => none

/-- The node with an anchor among some nodes. -/
def findIn? (anchor : Nat) : List Node → Option Node
  | [] => none
  | n :: ns => (find? anchor n).or (findIn? anchor ns)

/-- The node with an anchor among some entries. -/
def findInEntries? (anchor : Nat) : List (Node × Node) → Option Node
  | [] => none
  | (k, v) :: es => ((find? anchor k).or (find? anchor v)).or (findInEntries? anchor es)

end

end Node

/-! ### Tags -/

/-- What the tags of the standard types begin with. -/
def standardTagLead : Text := "tag:yaml.org,2002:"

/-- A tag in its short form. -/
def shortTag (tag : Text) : Text :=
  match Text.after? standardTagLead tag with
  | some name => "!!" ++ name
  | none => tag

/-! ### Reading tokens -/

/-- What is left to read, the anchors defined so far with the last one first, and what the tag
handles stand for. -/
structure Reader where
  tokens : List Token
  anchors : List Text
  handles : List (Text × Text)
deriving Repr

namespace Reader

/-- The kind and line of the next token. -/
def peek? (r : Reader) : Option (TokenKind × Nat) := r.tokens.head?.map fun t => (t.kind, t.line)

/-- Passes over a token. -/
def skip (r : Reader) : Reader := { r with tokens := r.tokens.drop 1 }

/-- The tag of a node: its handle replaced by what it stands for. -/
def tagOf? (r : Reader) (handle suffix : Text) : Option Text :=
  if handle = [] then some suffix else (r.handles.lookup handle).map (· ++ suffix)

/-- The number of an anchor, the last one with the name. -/
def anchor? (r : Reader) (name : Text) : Option Nat :=
  if r.anchors.contains name then some (r.anchors.length - 1 - r.anchors.idxOf name) else none

/-- An anchor at the head, if there is one. -/
def takeAnchor (r : Reader) : Option Text × Reader :=
  match r.peek? with
  | some (.anchor name, _) => (some name, r.skip)
  | _ => (none, r)

/-- A tag at the head, if there is one; `none` if its handle is unknown. -/
def takeTag? (r : Reader) : Option (Text × Reader) :=
  match r.peek? with
  | some (.tag handle suffix, _) => (r.tagOf? handle suffix).map fun tag => (tag, r.skip)
  | _ => some ([], r)

/-- The anchor and tag in front of a node, in either order, as the header of a node that starts on
the given line. -/
def takeHeader? (r : Reader) (line : Nat) : Option (Header × Reader) := do
  let (first, r) := r.takeAnchor
  let (tag, r) ← r.takeTag?
  let (name, r) := if first.isSome then (first, r) else r.takeAnchor
  let tag := if tag = ("!" : Text) then tag else shortTag tag
  match name with
  | some name =>
    return (⟨line, tag, some r.anchors.length⟩, { r with anchors := name :: r.anchors })
  | none => return (⟨line, tag, none⟩, r)

mutual

/-- The node at the head. Block collections are read where `block` allows them, and a sequence that
is not indented further than the mapping around it where `indentless` does. -/
def node? : (fuel : Nat) → (block indentless : Bool) → Reader → Option (Node × Reader)
  | 0, _, _, _ => none
  | fuel + 1, block, indentless, r => do
    let (kind, line) ← r.peek?
    if let .reference name := kind then
      return (.reference line name (← r.anchor? name), r.skip)
    let (header, r) ← r.takeHeader? line
    match (← r.peek?).1 with
    | .blockEntry =>
      if indentless then
        let (items, r) ← indentlessItems? fuel r
        return (.sequence header items, r)
      else emptyNode? header r
    | .scalar style text => return (.scalar header style text, r.skip)
    | .flowSequenceStart =>
      let (items, r) ← flowItems? fuel true r.skip
      return (.sequence header items, r)
    | .flowMappingStart =>
      let (entries, r) ← flowEntries? fuel true r.skip
      return (.mapping header entries, r)
    | .blockSequenceStart =>
      if block then
        let (items, r) ← blockItems? fuel r.skip
        return (.sequence header items, r)
      else emptyNode? header r
    | .blockMappingStart =>
      if block then
        let (entries, r) ← blockEntries? fuel r.skip
        return (.mapping header entries, r)
      else emptyNode? header r
    | _ => emptyNode? header r
where
  /-- A node of which only an anchor or a tag is written. -/
  emptyNode? (header : Header) (r : Reader) : Option (Node × Reader) :=
    if header.anchor = none && header.tag = [] then none else some (.scalar header .plain [], r)

/-- The node at the head, or an absent one if a token comes first that ends it. -/
def nodeOrAbsent? : (fuel : Nat) → (block indentless : Bool) → (ends : List TokenKind) → Reader →
    Option (Node × Reader)
  | 0, _, _, _, _ => none
  | fuel + 1, block, indentless, ends, r => do
    let (kind, line) ← r.peek?
    if ends.contains kind then return (.absent line, r) else node? fuel block indentless r

/-- The items of a block sequence. -/
def blockItems? : (fuel : Nat) → Reader → Option (List Node × Reader)
  | 0, _ => none
  | fuel + 1, r => do
    let (kind, _) ← r.peek?
    match kind with
    | .blockEntry =>
      let (item, r) ← nodeOrAbsent? fuel true false [.blockEntry, .blockEnd] r.skip
      let (items, r) ← blockItems? fuel r
      return (item :: items, r)
    | .blockEnd => return ([], r.skip)
    | _ => none

/-- The items of a sequence that is indented like the mapping around it. -/
def indentlessItems? : (fuel : Nat) → Reader → Option (List Node × Reader)
  | 0, _ => none
  | fuel + 1, r => do
    let (kind, _) ← r.peek?
    match kind with
    | .blockEntry =>
      let (item, r) ← nodeOrAbsent? fuel true false [.blockEntry, .key, .value, .blockEnd] r.skip
      let (items, r) ← indentlessItems? fuel r
      return (item :: items, r)
    | _ => return ([], r)

/-- The entries of a block mapping. -/
def blockEntries? : (fuel : Nat) → Reader → Option (List (Node × Node) × Reader)
  | 0, _ => none
  | fuel + 1, r => do
    let (kind, _) ← r.peek?
    match kind with
    | .key =>
      let (key, r) ← nodeOrAbsent? fuel true true [.key, .value, .blockEnd] r.skip
      let (value, r) ← blockValue? fuel r
      let (entries, r) ← blockEntries? fuel r
      return ((key, value) :: entries, r)
    | .blockEnd => return ([], r.skip)
    | _ => none

/-- The value of an entry of a block mapping. -/
def blockValue? : (fuel : Nat) → Reader → Option (Node × Reader)
  | 0, _ => none
  | fuel + 1, r => do
    let (kind, line) ← r.peek?
    match kind with
    | .value => nodeOrAbsent? fuel true true [.key, .value, .blockEnd] r.skip
    | _ => return (.absent line, r)

/-- The items of a flow sequence. -/
def flowItems? : (fuel : Nat) → (first : Bool) → Reader → Option (List Node × Reader)
  | 0, _, _ => none
  | fuel + 1, first, r => do
    let (kind, _) ← r.peek?
    if kind = .flowSequenceEnd then return ([], r.skip)
    let r ← if first then some r else if kind = .flowEntry then some r.skip else none
    let (kind, line) ← r.peek?
    match kind with
    | .key =>
      let (pair, r) ← flowPair? fuel line r.skip
      let (items, r) ← flowItems? fuel false r
      return (pair :: items, r)
    | .flowSequenceEnd => return ([], r.skip)
    | _ =>
      let (item, r) ← node? fuel false false r
      let (items, r) ← flowItems? fuel false r
      return (item :: items, r)

/-- An item of a flow sequence that is a mapping of one entry without braces. A key that is absent
takes the token after it along. -/
def flowPair? : (fuel : Nat) → (line : Nat) → Reader → Option (Node × Reader)
  | 0, _, _ => none
  | fuel + 1, line, r => do
    let (kind, start) ← r.peek?
    let (key, r) ←
      if kind = .value || kind = .flowEntry || kind = .flowSequenceEnd then
        some (Node.absent start, r.skip)
      else node? fuel false false r
    let (value, r) ← flowValue? fuel .flowSequenceEnd r
    return (.mapping ⟨line, [], none⟩ [(key, value)], r)

/-- The entries of a flow mapping. -/
def flowEntries? : (fuel : Nat) → (first : Bool) → Reader → Option (List (Node × Node) × Reader)
  | 0, _, _ => none
  | fuel + 1, first, r => do
    let (kind, _) ← r.peek?
    if kind = .flowMappingEnd then return ([], r.skip)
    let r ← if first then some r else if kind = .flowEntry then some r.skip else none
    let (kind, line) ← r.peek?
    match kind with
    | .key =>
      let (key, r) ← nodeOrAbsent? fuel false false [.value, .flowEntry, .flowMappingEnd] r.skip
      let (value, r) ← flowValue? fuel .flowMappingEnd r
      let (entries, r) ← flowEntries? fuel false r
      return ((key, value) :: entries, r)
    | .flowMappingEnd => return ([], r.skip)
    | _ =>
      let (key, r) ← node? fuel false false r
      let (entries, r) ← flowEntries? fuel false r
      return ((key, .absent line) :: entries, r)

/-- The value of an entry in a flow collection that ends with the given token. -/
def flowValue? : (fuel : Nat) → (end_ : TokenKind) → Reader → Option (Node × Reader)
  | 0, _, _ => none
  | fuel + 1, end_, r => do
    let (kind, line) ← r.peek?
    match kind with
    | .value => nodeOrAbsent? fuel false false [.flowEntry, end_] r.skip
    | _ => return (.absent line, r)

end

/-! ### Documents -/

/-- The handles that need no directive. -/
def standardHandles : List (Text × Text) := [("!", "!"), ("!!", standardTagLead)]

/-- Reads the directives in front of a document: at most one version, which must be 1.1, and each
handle once. -/
def directives? : (fuel : Nat) → (versioned : Bool) → (handles : List (Text × Text)) → Reader →
    Option (List (Text × Text) × Reader)
  | 0, _, _, _ => none
  | fuel + 1, versioned, handles, r => do
    let (kind, _) ← r.peek?
    match kind with
    | .versionDirective major minor =>
      if versioned || major ≠ 1 || minor ≠ 1 then none else directives? fuel true handles r.skip
    | .tagDirective handle lead =>
      if (handles.lookup handle).isSome then none
      else directives? fuel versioned ((handle, lead) :: handles) r.skip
    | _ => some (handles, r)

/-- The root of the first document; `some none` if there is no document. -/
def document? (r : Reader) : Option (Option Node) := do
  let fuel := 4 * r.tokens.length + 4
  let (kind, _) ← r.peek?
  match kind with
  | .streamEnd => return none
  | .versionDirective .. | .tagDirective .. | .documentStart =>
    let (handles, r) ← directives? fuel false [] r
    let r := { r with handles := handles ++ standardHandles }
    match (← r.peek?).1 with
    | .documentStart =>
      let (kind, line) ← r.skip.peek?
      match kind with
      | .versionDirective .. | .tagDirective .. | .documentStart | .documentEnd | .streamEnd =>
        return some (.absent line)
      | _ =>
        let (root, r) ← node? fuel true false r.skip
        let _ ← r.peek?
        return some root
    | _ => none
  | _ =>
    let (root, r) ← node? fuel true false r
    let _ ← r.peek?
    return some root

end Reader

/-- The root of the first document of a text: `none` if the text is malformed, `some none` if it
holds no document. -/
def parse? (t : Text) : Option (Option Node) :=
  Reader.document? ⟨tokens t, [], Reader.standardHandles⟩

end Yaml

end MiniProgram
