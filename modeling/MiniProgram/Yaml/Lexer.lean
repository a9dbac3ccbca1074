import MiniProgram.Yaml.Property
import MiniProgram.Yaml.Scalar

/-!
From the characters of a YAML document to its tokens.

The start and end of block collections follow from the indentation, and a mapping key without an
indicator is known only when the colon after it is read. The lexer therefore remembers where such a
key may have begun, once for each open flow collection, and puts the missing tokens in their place
later. A key stands on one line and is at most 1024 characters long.

`tokens?` lists the tokens up to the first fault, as far as a reader that looks two tokens ahead may
see them.
-/

namespace MiniProgram

namespace Yaml

/-! ### State -/

/-- A place where a mapping key may have begun: the number of its first token, whether a key must be
there, and its position. -/
structure KeyMark where
  number : Nat
  required : Bool
  line : Nat
  column : Nat
  index : Nat
deriving DecidableEq, Repr

/-- Whether a possible key can still be one at a cursor. -/
def KeyMark.reaches (k : KeyMark) (c : Cursor) : Bool := k.line = c.line && c.index ≤ k.index + 1024

/-- The state of the lexer. Tokens are kept with the last one first, and the marks of possible keys
with that of the innermost flow collection first. -/
structure Lexer where
  cursor : Cursor
  tokens : List Token
  count : Nat
  flowLevel : Nat
  indent : Int
  outer : List Int
  keyAllowed : Bool
  keys : List (Option KeyMark)
deriving Repr

namespace Lexer

/-- The lexer at the start of a document. -/
def start (cs : List Nat) : Lexer := ⟨.start cs, [], 0, 0, -1, [], true, [none]⟩

/-- Adds a token that starts on the line of a cursor. -/
def push (l : Lexer) (kind : TokenKind) (c : Cursor) : Lexer :=
  { l with tokens := ⟨kind, c.line + 1⟩ :: l.tokens, count := l.count + 1 }

/-- Puts a token in front of the one with the given number. -/
def insertAt (l : Lexer) (number : Nat) (token : Token) : Lexer :=
  { l with
    tokens := l.tokens.take (l.count - number) ++ token :: l.tokens.drop (l.count - number)
    count := l.count + 1 }

/-! ### Indentation -/

/-- How many blocks end before a column, and the indentations that remain. -/
def closeTo (column : Int) : Int → List Int → Nat × Int × List Int
  | indent, [] => (0, indent, [])
  | indent, o :: outer =>
    if column < indent then
      let (n, rest) := closeTo column o outer
      (n + 1, rest)
    else (0, indent, o :: outer)

/-- Ends the blocks that are indented deeper than a column. -/
def unroll (l : Lexer) (column : Int) : Lexer :=
  if 0 < l.flowLevel then l
  else
    let (n, indent, outer) := closeTo column l.indent l.outer
    (List.replicate n TokenKind.blockEnd).foldl (fun l kind => l.push kind l.cursor)
      { l with indent := indent, outer := outer }

/-- Starts a block at a column, if it is deeper than the current one, in front of the token with the
given number. -/
def roll (l : Lexer) (column number : Nat) (token : Token) : Lexer :=
  if l.flowLevel = 0 && l.indent < column then
    { l.insertAt number token with indent := column, outer := l.indent :: l.outer }
  else l

/-! ### Possible keys -/

/-- Forgets the possible key of the current level; a key that must be there is missing. -/
def dropKey? (l : Lexer) : Option Lexer :=
  match l.keys with
  | some k :: keys => if k.required then none else some { l with keys := none :: keys }
  | _ => some l

/-- Remembers that a key may begin here, where that is allowed. -/
def markKey? (l : Lexer) : Option Lexer :=
  if l.keyAllowed then do
    let l ← l.dropKey?
    let c := l.cursor
    let required := l.flowLevel = 0 && l.indent = c.column
    return { l with keys := some ⟨l.count, required, c.line, c.column, c.index⟩ :: l.keys.drop 1 }
  else some l

/-! ### White space and comments -/

/-- Passes over a comment and the comments on the lines below it. -/
def skipCommentsFrom : (fuel : Nat) → Cursor → Cursor
  | 0, c => c
  | fuel + 1, c =>
    let c := c.skipLine
    let gap := (c.rest.drop 1).takeWhile fun x => isBlank x || isBreak x
    if gap.length < 511 && (c.rest.drop (1 + gap.length)).head? = some 35 then
      skipCommentsFrom fuel ((List.range (gap.length + 1)).foldl (fun c _ =>
        if c.rest.head?.any isBreak then c.skipBreak
        else if c.rest.head? = some 35 then c else c.skip 1) c)
    else c

/-- Passes over white space, line breaks and comments up to the next token, and tells whether a key
may begin there. A tab is no indentation. -/
def toTokenFrom (inFlow : Bool) : (fuel : Nat) → (keyAllowed : Bool) → Cursor → Bool × Cursor
  | 0, keyAllowed, c => (keyAllowed, c)
  | fuel + 1, keyAllowed, c =>
    let c := if c.column = 0 && c.rest.head? = some byteOrderMark then c.skip 1 else c
    let c := c.skipWhile fun x => x = 32 || ((inFlow || !keyAllowed) && x = 9)
    let c := if c.rest.head? = some 35 then skipCommentsFrom c.rest.length c else c
    if c.rest.head?.any isBreak then toTokenFrom inFlow fuel (keyAllowed || !inFlow) c.skipBreak
    else (keyAllowed, c)

/-- Moves to the next token. -/
def toToken (l : Lexer) : Lexer :=
  let (keyAllowed, c) :=
    toTokenFrom (0 < l.flowLevel) (l.cursor.rest.length + 1) l.keyAllowed l.cursor
  { l with cursor := c, keyAllowed := keyAllowed }

/-- Passes over a comment on the same line. -/
def skipLineComment (l : Lexer) : Lexer :=
  let c := l.cursor.skipWhile isBlank
  if c.rest.head? = some 35 then { l with cursor := c.skipLine } else l

/-! ### Tokens -/

/-- Reads an indicator of one character. -/
def indicator (l : Lexer) (kind : TokenKind) (keyAllowed : Bool) : Lexer :=
  { l.push kind l.cursor with cursor := l.cursor.skip 1, keyAllowed := keyAllowed }

/-- Ends all blocks and forgets a possible key, as at the bounds of a document. -/
def closeAll? (l : Lexer) : Option Lexer := do
  let l ← (l.unroll (-1)).dropKey?
  return { l with keyAllowed := false }

/-- Reads the mark that starts or ends a document. -/
def documentMark? (l : Lexer) (kind : TokenKind) : Option Lexer := do
  let l ← l.closeAll?
  return { l.push kind l.cursor with cursor := l.cursor.skip 3 }

/-- Reads the start of a flow collection. -/
def openFlow? (l : Lexer) (kind : TokenKind) : Option Lexer := do
  let l ← l.markKey?
  return indicator { l with flowLevel := l.flowLevel + 1, keys := none :: l.keys } kind true

/-- Reads the end of a flow collection. -/
def closeFlow? (l : Lexer) (kind : TokenKind) : Option Lexer := do
  let l ← l.dropKey?
  let l := if l.flowLevel = 0 then l
    else { l with flowLevel := l.flowLevel - 1, keys := l.keys.drop 1 }
  return indicator l kind false

/-- Starts the block that an indicator at the cursor belongs to, outside flow collections. -/
def openBlock? (l : Lexer) (kind : TokenKind) : Option Lexer :=
  if l.flowLevel = 0 then
    if l.keyAllowed then some (l.roll l.cursor.column l.count ⟨kind, l.cursor.line + 1⟩) else none
  else some l

/-- Reads the indicator of a sequence entry. -/
def blockEntry? (l : Lexer) : Option Lexer := do
  let l ← (← l.openBlock? .blockSequenceStart).dropKey?
  return indicator l .blockEntry true

/-- Reads the indicator of a mapping key. -/
def key? (l : Lexer) : Option Lexer := do
  let l ← (← l.openBlock? .blockMappingStart).dropKey?
  return indicator l .key (l.flowLevel = 0)

/-- Reads the indicator of a mapping value. If a key may have begun before it, that was one. -/
def value? (l : Lexer) : Option Lexer :=
  match l.keys with
  | some k :: keys =>
    if k.reaches l.cursor then
      let l := { l with keys := none :: keys }
      let l := l.insertAt k.number ⟨.key, k.line + 1⟩
      let l := l.roll k.column k.number ⟨.blockMappingStart, k.line + 1⟩
      some (indicator l .value false)
    else if k.required then none
    else complexValue? { l with keys := none :: keys }
  | _ => complexValue? l
where
  /-- Reads the value of a key that has an indicator of its own, or of none. -/
  complexValue? (l : Lexer) : Option Lexer := do
    let l ← l.openBlock? .blockMappingStart
    return indicator l .value (l.flowLevel = 0)

/-- Reads a token that may begin a key by its own reader. -/
def leading? (l : Lexer) (read : Cursor → Option (TokenKind × Cursor)) : Option Lexer := do
  let l ← l.markKey?
  let (kind, c) ← read l.cursor
  return { l.push kind l.cursor with cursor := c, keyAllowed := false }

/-- Reads a plain scalar. -/
def plainScalar? (l : Lexer) : Option Lexer := do
  let l ← l.markKey?
  let (text, broken, c) ← plain? (0 < l.flowLevel) (l.indent + 1).toNat l.cursor
  let l := { l.push (.scalar .plain (Text.ofRunes text)) l.cursor with cursor := c }
  return if broken then { l with keyAllowed := true }
    else { l with keyAllowed := false }.skipLineComment

/-- Reads a block scalar. -/
def blockScalar? (l : Lexer) (folded : Bool) : Option Lexer := do
  let l ← l.dropKey?
  let (text, c) ← block? folded l.indent l.cursor
  let style : Style := if folded then .folded else .literal
  return { l.push (.scalar style (Text.ofRunes text)) l.cursor with
    cursor := c
    keyAllowed := true }

/-- The reader of a quoted scalar. -/
def quotedToken? (single : Bool) (c : Cursor) : Option (TokenKind × Cursor) :=
  (quoted? single c).map fun (text, c) =>
    (.scalar (if single then .singleQuoted else .doubleQuoted) (Text.ofRunes text), c)

/-- The characters that have a meaning of their own at the start of a node. -/
def indicators : List Nat :=
  [45, 63, 58, 44, 91, 93, 123, 125, 35, 38, 42, 33, 124, 62, 39, 34, 37, 64, 96]

/-- Whether a plain scalar may begin with a character, given what follows it. -/
def startsPlain (inFlow : Bool) (x : Nat) (rest : List Nat) : Bool :=
  !(isBlank x || isBreak x || indicators.contains x)
    || (x = 45 && !rest.head?.any isBlank)
    || (!inFlow && (x = 63 || x = 58) && !atBlank rest)

/-- Reads the token at the cursor, which is not at the end. -/
def token? (l : Lexer) (x : Nat) (rest : List Nat) : Option Lexer :=
  let inFlow := 0 < l.flowLevel
  if l.cursor.column = 0 && x = 37 then do
    let closed ← l.closeAll?
    let (kind, c) ← directive? closed.cursor
    return { closed.push kind closed.cursor with cursor := c }
  else if l.cursor.column = 0 && atDocumentMark 45 (x :: rest) then l.documentMark? .documentStart
  else if l.cursor.column = 0 && atDocumentMark 46 (x :: rest) then l.documentMark? .documentEnd
  else if x = 45 && atBlank rest then l.blockEntry?
  else if x = 124 && !inFlow then l.blockScalar? false
  else if x = 62 && !inFlow then l.blockScalar? true
  else
    let next :=
      if x = 91 then l.openFlow? .flowSequenceStart
      else if x = 123 then l.openFlow? .flowMappingStart
      else if x = 93 then l.closeFlow? .flowSequenceEnd
      else if x = 125 then l.closeFlow? .flowMappingEnd
      else if x = 44 then l.dropKey?.map (indicator · .flowEntry true)
      else if x = 63 && (inFlow || atBlank rest) then l.key?
      else if x = 58 && (inFlow || atBlank rest) then l.value?
      else if x = 42 then
        l.leading? fun c => (anchorName? c).map fun (name, c) => (.reference name, c)
      else if x = 38 then
        l.leading? fun c => (anchorName? c).map fun (name, c) => (.anchor name, c)
      else if x = 33 then
        l.leading? fun c => (tag? c).map fun (handle, suffix, c) => (.tag handle suffix, c)
      else if x = 39 then l.leading? (quotedToken? true)
      else if x = 34 then l.leading? (quotedToken? false)
      else none
    match next with
    | some l => some l.skipLineComment
    | none => if startsPlain inFlow x rest then l.plainScalar? else none

/-- Reads the next token with what the indentation before it implies; `none` at a fault, and the
stream end as the last token. -/
def step? (l : Lexer) : Option Lexer :=
  let l := l.toToken
  let l := l.unroll l.cursor.column
  match l.cursor.rest with
  | [] => l.closeAll?.map fun l => l.push .streamEnd l.cursor
  | x :: rest => l.token? x rest

/-! ### All tokens -/

/-- Whether the last token read is the end of the stream. -/
def isDone (l : Lexer) : Bool := l.tokens.head?.any fun t => t.kind = .streamEnd

/-- The tokens a reader may see when the next one is a fault: it looks two tokens ahead, and does
not pass a token that may still turn out to begin a key. -/
def visible (l : Lexer) : List Token :=
  let pending := l.keys.filterMap fun k =>
    k.bind fun k => if k.reaches l.cursor then some k.number else none
  l.tokens.reverse.take (pending.foldl min (l.count - 2))

/-- All tokens from a state on, on the given fuel. -/
def run : (fuel : Nat) → Lexer → List Token
  | 0, l => l.visible
  | fuel + 1, l =>
    if l.isDone then l.tokens.reverse
    else
      match l.step? with
      | some l => run fuel l
      | none => l.visible

end Lexer

/-- The characters of a document, if all of them are allowed; a byte order mark in front is
dropped. -/
def characters? (t : Text) : Option (List Nat) :=
  let cs := Text.runes t
  if Text.valid t && cs.all isAllowed then
    some (if cs.head? = some byteOrderMark then cs.drop 1 else cs)
  else none

/-- The tokens of a document up to its first fault. -/
def tokens (t : Text) : List Token :=
  match characters? t with
  | some cs => Lexer.run (cs.length + 2) (Lexer.start cs)
  | none => []

end Yaml

end MiniProgram
