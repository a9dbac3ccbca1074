import MiniProgram.Text.Basic

/-!
Searching a text for a pattern from left to right.

A pattern is given by a recogniser, which sees the byte before the current position and the text
from there on, and tells how many bytes a match takes and what it found. Matches do not overlap: the
search goes on where the last match ended. `hits` lists them with their positions, `replace` puts
something else in their place and keeps every other byte.
-/

namespace MiniProgram

/-- Recognises a pattern at a position, given the byte before it and the text from there on: the
number of bytes taken, at least one, and what was found. -/
abbrev Recognizer (α : Type) := Option UInt8 → Text → Option (Nat × α)

/-- A match of a pattern: the position of its first byte, its length, and what was found. -/
structure Hit (α : Type) where
  start : Nat
  length : Nat
  found : α
deriving Repr

namespace Search

variable {α : Type}

/-- The matches in the rest of a text, of which the next `skip` bytes belong to a match already
listed. -/
def hitsFrom (r : Recognizer α) : (before : Option UInt8) → (position skip : Nat) → Text →
    List (Hit α)
  | _, _, _, [] => []
  | _, position, skip + 1, b :: t => hitsFrom r (some b) (position + 1) skip t
  | before, position, 0, b :: t =>
    match r before (b :: t) with
    | some (n, a) => ⟨position, n, a⟩ :: hitsFrom r (some b) (position + 1) (n - 1) t
    | none => hitsFrom r (some b) (position + 1) 0 t

/-- The matches of a pattern in a text, from left to right. -/
def hits (r : Recognizer α) (t : Text) : List (Hit α) := hitsFrom r none 0 0 t

/-- The rest of a text with its matches replaced; the next `skip` bytes belong to a match already
replaced. -/
def replaceFrom (r : Recognizer α) (f : α → Text) : (before : Option UInt8) → (skip : Nat) → Text →
    Text
  | _, _, [] => []
  | _, skip + 1, b :: t => replaceFrom r f (some b) skip t
  | before, 0, b :: t =>
    match r before (b :: t) with
    | some (n, a) => f a ++ replaceFrom r f (some b) (n - 1) t
    | none => b :: replaceFrom r f (some b) 0 t

/-- A text with every match of a pattern replaced by what `f` makes of it. -/
def replace (r : Recognizer α) (f : α → Text) (t : Text) : Text := replaceFrom r f none 0 t

/-- Whether a pattern matches somewhere in a text. -/
def occurs (r : Recognizer α) (t : Text) : Bool := !(hits r t).isEmpty

/-- The texts put in the place of spans of a text, given as start, length and replacement in
ascending order without overlap; every other byte is kept. -/
def splice : (position : Nat) → List (Nat × Nat × Text) → Text → Text
  | _, [], t => t
  | position, (start, length, new) :: edits, t =>
    t.take (start - position) ++ new
      ++ splice (start + length) edits (t.drop (start - position + length))

end Search

namespace Text

/-- Whether no word runs on from the byte before into this position. -/
def atWordStart (before : Option UInt8) : Bool := !before.any Byte.isWord

/-- Whether no word runs on into the text. -/
def atWordEnd (t : Text) : Bool := !t.head?.any Byte.isWord

/-- The text without the white space in front. -/
def skipSpace (t : Text) : Text := t.dropWhile Byte.isSpace

/-- What follows a word at a position where it may start. -/
def afterWord? (word : Text) (before : Option UInt8) (t : Text) : Option Text :=
  if atWordStart before then after? word t else none

end Text

end MiniProgram
