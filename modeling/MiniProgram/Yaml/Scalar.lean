import MiniProgram.Yaml.Token

/-!
Reading the text of scalars.

Between two words of a plain or quoted scalar stands a gap. A gap on one line is kept as it is; a
gap over several lines is folded: one line feed becomes a space, further ones are kept. A block
scalar is read line by line below its header.

Every reader answers with the text and the cursor behind it, or nothing if the scalar is malformed.
-/

namespace MiniProgram

namespace Yaml

/-! ### Gaps -/

/-- The white space between two words of a scalar: blanks on one line, or line breaks, the first of
them apart. A first break that was escaped is empty. -/
inductive Gap where
  | blanks (cs : List Nat)
  | lines (first more : List Nat)
deriving DecidableEq, Repr

namespace Gap

/-- What a gap contributes to the text. -/
def fold : Gap → List Nat
  | blanks cs => cs
  | lines [10] [] => [32]
  | lines [10] more => more
  | lines first more => first ++ more

/-- Whether a gap reaches beyond its line. -/
def breaksLine : Gap → Bool
  | blanks _ => false
  | lines _ _ => true

end Gap

/-- The gap at a cursor, on the given fuel. A tab before column `indent` of a new line is refused.
-/
def gapFrom? (indent : Nat) : (fuel : Nat) → Gap → Cursor → Option (Gap × Cursor)
  | 0, _, _ => none
  | fuel + 1, gap, c =>
    match c.rest with
    | [] => some (gap, c)
    | x :: _ =>
      if isBlank x then
        match gap with
        | .blanks cs => gapFrom? indent fuel (.blanks (cs ++ [x])) (c.skip 1)
        | .lines _ _ =>
          if x = 9 && c.column < indent then none else gapFrom? indent fuel gap (c.skip 1)
      else if isBreak x then
        let gap := match gap with
          | .blanks _ => .lines c.breakText []
          | .lines first more => .lines first (more ++ c.breakText)
        gapFrom? indent fuel gap c.skipBreak
      else some (gap, c)

/-- The gap at a cursor, given how it began. -/
def gap? (indent : Nat) (begun : Gap) (c : Cursor) : Option (Gap × Cursor) :=
  gapFrom? indent (c.rest.length + 1) begun c

/-! ### Plain scalars -/

/-- A character that ends a plain scalar inside a flow collection. -/
def endsFlowScalar (c : Nat) : Bool :=
  c = 44 || c = 63 || c = 91 || c = 93 || c = 123 || c = 125

/-- The length of the word at the head of a plain scalar. -/
def plainWordLength (inFlow : Bool) : List Nat → Nat
  | [] => 0
  | c :: rest =>
    if isBlank c || isBreak c || (c = 58 && atBlank rest) || (inFlow && endsFlowScalar c) then 0
    else plainWordLength inFlow rest + 1

/-- The rest of a plain scalar after some text and a gap, on the given fuel, and whether it ended
beyond its last line. -/
def plainFrom? (inFlow : Bool) (indent : Nat) :
    (fuel : Nat) → (text : List Nat) → Gap → Cursor → Option (List Nat × Bool × Cursor)
  | 0, _, _, _ => none
  | fuel + 1, text, gap, c =>
    if c.atDocumentBoundary || c.rest.head? = some 35 then some (text, gap.breaksLine, c)
    else
      let n := plainWordLength inFlow c.rest
      let (text, gap) :=
        if n = 0 then (text, gap) else (text ++ gap.fold ++ c.rest.take n, .blanks [])
      let c := c.skip n
      if c.rest.isEmpty || !atBlank c.rest then some (text, gap.breaksLine, c)
      else do
        let (gap, c) ← gap? indent (.blanks []) c
        if !inFlow && c.column < indent then some (text, gap.breaksLine, c)
        else plainFrom? inFlow indent fuel text gap c

/-- A plain scalar whose continuation lines are indented by at least `indent`, and whether it ended
beyond its last line. -/
def plain? (inFlow : Bool) (indent : Nat) (c : Cursor) : Option (List Nat × Bool × Cursor) :=
  plainFrom? inFlow indent (c.rest.length + 1) [] (.blanks []) c

/-! ### Quoted scalars -/

/-- The value of a hexadecimal digit. -/
def hexValue? (c : Nat) : Option Nat := if c < 128 then Byte.hexValue? c.toUInt8 else none

/-- The character a numeric escape of the given width stands for. -/
def codeEscape? (width : Nat) (cs : List Nat) : Option Nat :=
  let digits := (cs.take width).filterMap hexValue?
  let code := digits.foldl (fun n d => 16 * n + d) 0
  if digits.length = width && Rune.isScalar code then some code else none

/-- The escape after a backslash: the character it stands for and its length. -/
def escape? : List Nat → Option (Nat × Nat)
  | [] => none
  | e :: rest =>
    match ([(48, 0), (97, 7), (98, 8), (116, 9), (9, 9), (110, 10), (118, 11), (102, 12), (114, 13),
        (101, 27), (32, 32), (34, 34), (39, 39), (92, 92), (78, 0x85), (95, 0xA0), (76, 0x2028),
        (80, 0x2029)] : List (Nat × Nat)).lookup e with
    | some c => some (c, 1)
    | none =>
      match ([(120, 2), (117, 4), (85, 8)] : List (Nat × Nat)).lookup e with
      | some width => (codeEscape? width rest).map fun c => (c, width + 1)
      | none => none

/-- The rest of a quoted scalar after some text, on the given fuel. -/
def quotedFrom? (single : Bool) : (fuel : Nat) → (text : List Nat) → Cursor →
    Option (List Nat × Cursor)
  | 0, _, _ => none
  | fuel + 1, text, c =>
    if c.atDocumentBoundary then none
    else
      match c.rest with
      | [] => none
      | x :: rest =>
        if isBlank x || isBreak x then do
          let (gap, c) ← gap? 0 (.blanks []) c
          quotedFrom? single fuel (text ++ gap.fold) c
        else if single && x = 39 then
          if rest.head? = some 39 then quotedFrom? single fuel (text ++ [39]) (c.skip 2)
          else some (text, c.skip 1)
        else if !single && x = 34 then some (text, c.skip 1)
        else if !single && x = 92 then
          if rest.head?.any isBreak then do
            let (gap, c) ← gap? 0 (.lines [] []) (c.skip 1).skipBreak
            quotedFrom? single fuel (text ++ gap.fold) c
          else do
            let (e, n) ← escape? rest
            quotedFrom? single fuel (text ++ [e]) (c.skip (n + 1))
        else quotedFrom? single fuel (text ++ [x]) (c.skip 1)

/-- A quoted scalar, the cursor standing on its opening quote. -/
def quoted? (single : Bool) (c : Cursor) : Option (List Nat × Cursor) :=
  quotedFrom? single (c.rest.length + 1) [] (c.skip 1)

/-! ### Block scalars -/

/-- What becomes of the line breaks at the end of a block scalar. -/
inductive Chomping where
  | strip
  | clip
  | keep
deriving DecidableEq, Repr

/-- The header of a block scalar after its indicator: chomping, indentation if given, and the cursor
on the line below. -/
def blockHeader? (c : Cursor) : Option (Chomping × Nat × Cursor) := do
  let chomp (x : Nat) : Option Chomping :=
    if x = 43 then some .keep else if x = 45 then some .strip else none
  let digit (x : Nat) : Option Nat := if 48 ≤ x && x ≤ 57 then some (x - 48) else none
  let (chomping, indent, c) ← match (c.rest.head?.bind chomp), (c.rest.head?.bind digit) with
    | some k, _ =>
      let c := c.skip 1
      match c.rest.head?.bind digit with
      | some 0 => none
      | some d => some (k, d, c.skip 1)
      | none => some (k, 0, c)
    | none, some 0 => none
    | none, some d =>
      let c := c.skip 1
      match c.rest.head?.bind chomp with
      | some k => some (k, d, c.skip 1)
      | none => some (.clip, d, c)
    | none, none => some (.clip, 0, c)
  let c := c.skipWhile isBlank
  let c := if c.rest.head? = some 35 then c.skipLine else c
  if atLineEnd c.rest then some (chomping, indent, c.skipBreak) else none

/-- The empty lines at a cursor: their breaks, the greatest column reached, and the cursor behind
the indentation of the first line that is not empty. An indentation of zero is not known yet. -/
def emptyLinesFrom? (indent : Nat) : (fuel : Nat) → (breaks : List Nat) → (widest : Nat) → Cursor →
    Option (List Nat × Nat × Cursor)
  | 0, _, _, _ => none
  | fuel + 1, breaks, widest, c =>
    let room := if indent = 0 then c.rest.length else indent - c.column
    let c := c.skip ((c.rest.take room).takeWhile (· = 32)).length
    let widest := max widest c.column
    if (indent = 0 || c.column < indent) && c.rest.head? = some 9 then none
    else if c.rest.head?.any isBreak then
      emptyLinesFrom? indent fuel (breaks ++ c.breakText) widest c.skipBreak
    else some (breaks, widest, c)

/-- The empty lines at a cursor, and the indentation of the block, which the first line that is not
empty decides if it is not known yet. -/
def emptyLines? (parent : Int) (indent : Nat) (c : Cursor) : Option (List Nat × Nat × Cursor) := do
  let (breaks, widest, c) ← emptyLinesFrom? indent (c.rest.length + 1) [] 0 c
  let indent := if indent = 0 then max (max widest (parent + 1).toNat) 1 else indent
  return (breaks, indent, c)

/-- The rest of a block scalar: `text` so far, the break of the last line, whether that line began
with a blank, and the empty lines after it. -/
def blockFrom? (folded : Bool) (chomping : Chomping) (parent : Int) (indent : Nat) :
    (fuel : Nat) → (text lastBreak : List Nat) → (indented : Bool) → (empty : List Nat) → Cursor →
    Option (List Nat × Cursor)
  | 0, _, _, _, _, _ => none
  | fuel + 1, text, lastBreak, indented, empty, c =>
    if c.column = indent && !c.rest.isEmpty then
      let blank := c.rest.head?.any isBlank
      let joint :=
        if folded && !indented && !blank && lastBreak.head? = some 10 then
          if empty.isEmpty then [32] else []
        else lastBreak
      let line := c.rest.takeWhile (!isBreak ·)
      let c := c.skipLine
      let lastBreak := c.breakText
      do
        let (more, _, c) ← emptyLines? parent indent c.skipBreak
        blockFrom? folded chomping parent indent fuel (text ++ joint ++ empty ++ line) lastBreak
          blank more c
    else
      let tail := match chomping with
        | .strip => []
        | .clip => lastBreak
        | .keep => lastBreak ++ empty
      some (text ++ tail, c)

/-- A block scalar inside a block of indentation `parent`, the cursor standing on its indicator. -/
def block? (folded : Bool) (parent : Int) (c : Cursor) : Option (List Nat × Cursor) := do
  let (chomping, increment, c) ← blockHeader? (c.skip 1)
  let indent := if increment = 0 then 0 else (max parent 0).toNat + increment
  let (empty, indent, c) ← emptyLines? parent indent c
  blockFrom? folded chomping parent indent (c.rest.length + 1) [] [] false empty c

end Yaml

end MiniProgram
