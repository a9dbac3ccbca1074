import MiniProgram.Yaml.Token

/-!
Anchors, references, tags and directives: the tokens that are no content themselves but say
something about a node or a document.
-/

namespace MiniProgram

namespace Yaml

/-- The name of an anchor or reference, the cursor standing on its indicator. -/
def anchorName? (c : Cursor) : Option (Text × Cursor) :=
  let c := c.skip 1
  let name := c.rest.takeWhile isNameChar
  let c := c.skip name.length
  let ended := atBlank c.rest
    || c.rest.head?.any fun x => ([63, 58, 44, 93, 125, 37, 64, 96] : List Nat).contains x
  if name.isEmpty || !ended then none else some (Text.ofRunes name, c)

/-! ### Tags -/

/-- A character of a tag. -/
def isTagChar (c : Nat) : Bool :=
  isNameChar c
    || ([59, 47, 63, 58, 64, 38, 61, 43, 36, 44, 46, 33, 126, 42, 39, 40, 41, 91, 93, 37]
      : List Nat).contains c

/-- The bytes a run of tag characters stands for, percent escapes resolved. -/
def tagBytes? : List Nat → Option Text
  | [] => some []
  | 37 :: a :: b :: rest =>
    if a < 128 && b < 128 then
      match Byte.hexValue? a.toUInt8, Byte.hexValue? b.toUInt8 with
      | some x, some y => (tagBytes? rest).map ((16 * x + y).toUInt8 :: ·)
      | _, _ => none
    else none
  | c :: rest => if c = 37 then none else (tagBytes? rest).map (c.toUInt8 :: ·)

/-- The run of tag characters at a cursor, whose escapes must form well-formed text. -/
def tagRun? (c : Cursor) : Option (Text × Cursor) :=
  let run := c.rest.takeWhile isTagChar
  match tagBytes? run with
  | some bytes => if Text.valid bytes then some (bytes, c.skip run.length) else none
  | none => none

/-- A tag handle at a cursor: an exclamation mark, and if another one follows some name characters,
all up to that one. -/
def tagHandle (c : Cursor) : Text × Cursor :=
  let name := (c.rest.drop 1).takeWhile isNameChar
  if (c.rest.drop (1 + name.length)).head? = some 33 then
    (Text.ofRunes (c.rest.take (name.length + 2)), c.skip (name.length + 2))
  else (Text.ofRunes (c.rest.take (name.length + 1)), c.skip (name.length + 1))

/-- The handle and suffix of a tag, the cursor standing on its indicator. The tag that is a lone
exclamation mark has an empty handle. -/
def tag? (c : Cursor) : Option (Text × Text × Cursor) := do
  let (handle, suffix, c) ←
    if (c.rest.drop 1).head? = some 60 then do
      let (suffix, c) ← tagRun? (c.skip 2)
      if suffix = [] || c.rest.head? ≠ some 62 then none else some ([], suffix, c.skip 1)
    else
      let (handle, c) := tagHandle c
      if 1 < handle.length && Text.endsWith handle "!" then do
        let (suffix, c) ← tagRun? c
        if suffix = [] then none else some (handle, suffix, c)
      else do
        let (more, c) ← tagRun? c
        let suffix := handle.drop 1 ++ more
        some (if suffix = [] then ([], handle, c) else ("!", suffix, c))
  if atBlank c.rest then some (handle, suffix, c) else none

/-! ### Directives -/

/-- A number of a version directive: one to nine digits. -/
def versionNumber? (c : Cursor) : Option (Nat × Cursor) :=
  let digits := Text.ofRunes (c.rest.takeWhile fun x => 48 ≤ x && x ≤ 57)
  if 9 < digits.length then none else (Text.toNat? digits).map fun n => (n, c.skip digits.length)

/-- A directive, the cursor standing on its indicator; the rest of its line may hold a comment. -/
def directive? (c : Cursor) : Option (TokenKind × Cursor) := do
  let c := c.skip 1
  let name := Text.ofRunes (c.rest.takeWhile isNameChar)
  let c := c.skip name.length
  if name = [] || !atBlank c.rest then none
  else
    let c := c.skipWhile isBlank
    let (kind, c) ←
      if name = ("YAML" : Text) then do
        let (major, c) ← versionNumber? c
        if c.rest.head? ≠ some 46 then none
        else do
          let (minor, c) ← versionNumber? (c.skip 1)
          some (.versionDirective major minor, c)
      else if name = ("TAG" : Text) then do
        if c.rest.head? ≠ some 33 then none
        else
          let (handle, c) := tagHandle c
          if handle ≠ ("!" : Text) && !(1 < handle.length && Text.endsWith handle "!") then none
          else if !c.rest.head?.any isBlank then none
          else do
            let (lead, c) ← tagRun? (c.skipWhile isBlank)
            if lead = [] || !atBlank c.rest then none else some (.tagDirective handle lead, c)
      else none
    let c := c.skipWhile isBlank
    let c := if c.rest.head? = some 35 then c.skipLine else c
    if atLineEnd c.rest then some (kind, c.skipBreak) else none

end Yaml

end MiniProgram
