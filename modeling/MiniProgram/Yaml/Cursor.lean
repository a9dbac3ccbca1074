import MiniProgram.Text.Utf8

/-!
A position in the characters of a YAML document, with the classes of characters its rules speak of.

A document is read as code points. Only printing characters, tabs and line breaks may occur in it; a
carriage return and a line feed together are one line break.
-/

namespace MiniProgram

namespace Yaml

/-! ### Characters -/

/-- A space or a tab. -/
def isBlank (c : Nat) : Bool := c = 32 || c = 9

/-- A line break: line feed, carriage return, next line, line or paragraph separator. -/
def isBreak (c : Nat) : Bool := c = 10 || c = 13 || c = 0x85 || c = 0x2028 || c = 0x2029

/-- A byte order mark. -/
def byteOrderMark : Nat := 0xFEFF

/-- A character that may occur in a document. -/
def isAllowed (c : Nat) : Bool :=
  c = 9 || c = 10 || c = 13 || (32 ≤ c && c ≤ 126) || c = 0x85 || (0xA0 ≤ c && c ≤ 0xD7FF)
    || (0xE000 ≤ c && c ≤ 0xFFFD) || (0x10000 ≤ c && c ≤ 0x10FFFF)

/-- A character of an anchor name or a tag handle. -/
def isNameChar (c : Nat) : Bool :=
  (48 ≤ c && c ≤ 57) || (65 ≤ c && c ≤ 90) || (97 ≤ c && c ≤ 122) || c = 95 || c = 45

/-- Whether a blank, a line break or the end stands at the head. -/
def atBlank : List Nat → Bool
  | [] => true
  | c :: _ => isBlank c || isBreak c

/-- Whether a line break or the end stands at the head. -/
def atLineEnd : List Nat → Bool
  | [] => true
  | c :: _ => isBreak c

/-- Whether a mark that starts or ends a document stands at the head. -/
def atDocumentMark (mark : Nat) : List Nat → Bool
  | a :: b :: c :: rest => a = mark && b = mark && c = mark && atBlank rest
  | _ => false

/-! ### Cursors -/

/-- What is left to read, with the line and column of its first character and the number of
characters before it. -/
structure Cursor where
  rest : List Nat
  line : Nat
  column : Nat
  index : Nat
deriving Repr

namespace Cursor

/-- The cursor at the start of some characters. -/
def start (cs : List Nat) : Cursor := ⟨cs, 0, 0, 0⟩

/-- Passes over `n` characters of a line. -/
def skip (c : Cursor) (n : Nat) : Cursor :=
  { c with rest := c.rest.drop n, column := c.column + n, index := c.index + n }

/-- Passes over the line break at the head, if there is one. -/
def skipBreak (c : Cursor) : Cursor :=
  match c.rest with
  | 13 :: 10 :: rest => ⟨rest, c.line + 1, 0, c.index + 2⟩
  | b :: rest => if isBreak b then ⟨rest, c.line + 1, 0, c.index + 1⟩ else c
  | [] => c

/-- What the line break at the head contributes to a scalar: a separator stands for itself, any
other break for a line feed. -/
def breakText (c : Cursor) : List Nat :=
  match c.rest with
  | b :: _ => if b = 0x2028 || b = 0x2029 then [b] else if isBreak b then [10] else []
  | [] => []

/-- Passes over the characters of the line that meet a condition. -/
def skipWhile (c : Cursor) (p : Nat → Bool) : Cursor := c.skip (c.rest.takeWhile p).length

/-- Passes over the rest of the line. -/
def skipLine (c : Cursor) : Cursor := c.skipWhile fun x => !isBreak x

/-- Whether a mark that starts or ends a document stands here, at the start of a line. -/
def atDocumentBoundary (c : Cursor) : Bool :=
  c.column = 0 && (atDocumentMark 45 c.rest || atDocumentMark 46 c.rest)

end Cursor

end Yaml

end MiniProgram
