import MiniProgram.Script.Lexer
import MiniProgram.Text.Blank
import MiniProgram.Text.Quoted
import MiniProgram.Text.Search

/-!
Class names of a stylesheet.

A stylesheet is cut into pieces whose concatenation is the stylesheet: the text in front of an
opening brace is a selector, everything else is kept as it stands. A block comment ends the piece
before it, a string in quotes does not. `scope` renames the classes in selectors, at-rules apart,
and `classes` lists them.
-/

namespace MiniProgram

namespace Stylesheet

/-! ### Pieces -/

/-- A piece of a stylesheet. -/
inductive Piece where
  | selector (text : Text)
  | verbatim (text : Text)
deriving DecidableEq, Repr

/-- The bytes of a piece. -/
def Piece.text : Piece → Text
  | selector t => t
  | verbatim t => t

/-- What a byte of a stylesheet stands in. The states `opening` and `closing` take the second byte
of a comment mark. -/
inductive Place where
  | outside
  | opening
  | comment
  | closing
  | literal (quote : UInt8)
  | escaped (quote : UInt8)
deriving DecidableEq, Repr

/-- The pieces of the rest of a stylesheet, given the bytes of the current one, last first. -/
def piecesFrom : Place → (chunk : Text) → Text → List Piece
  | _, chunk, [] => [.verbatim chunk.reverse]
  | .outside, chunk, b :: t =>
    if b = Byte.slash && t.head? = some Byte.star then piecesFrom .opening (b :: chunk) t
    else if Byte.isQuote b then piecesFrom (.literal b) (b :: chunk) t
    else if b = Byte.openBrace then
      .selector chunk.reverse :: .verbatim [b] :: piecesFrom .outside [] t
    else if b = Byte.closeBrace || b = Byte.semicolon then
      .verbatim (b :: chunk).reverse :: piecesFrom .outside [] t
    else piecesFrom .outside (b :: chunk) t
  | .opening, chunk, b :: t => piecesFrom .comment (b :: chunk) t
  | .comment, chunk, b :: t =>
    if b = Byte.star && t.head? = some Byte.slash then piecesFrom .closing (b :: chunk) t
    else piecesFrom .comment (b :: chunk) t
  | .closing, chunk, b :: t => .verbatim (b :: chunk).reverse :: piecesFrom .outside [] t
  | .literal q, chunk, b :: t =>
    if b = Byte.backslash then piecesFrom (.escaped q) (b :: chunk) t
    else if Script.endsLiteral q b then piecesFrom .outside (b :: chunk) t
    else piecesFrom (.literal q) (b :: chunk) t
  | .escaped q, chunk, b :: t => piecesFrom (.literal q) (b :: chunk) t

/-- The pieces of a stylesheet. -/
def pieces (css : Text) : List Piece := piecesFrom .outside [] css

/-! ### Classes -/

/-- A class in a selector: a dot and a name, which may start with a hyphen. Finds the name. -/
def classPattern : Recognizer Text := fun _ t =>
  match t with
  | Byte.dot :: name =>
    let (lead, rest) := match name with
      | Byte.hyphen :: r => ([Byte.hyphen], r)
      | _ => ([], name)
    if rest.head?.any fun b => Byte.isLetter b || b == Byte.underscore then
      let name := lead ++ rest.takeWhile fun b => Byte.isWord b || b == Byte.hyphen
      some (name.length + 1, name)
    else none
  | _ => none

/-- Whether a piece is a selector that may name classes: the head of an at-rule does not. -/
def Piece.isScoped : Piece → Bool
  | selector t => !Text.startsWith (Text.trim t) "@"
  | verbatim _ => false

/-- The piece with its classes renamed. -/
def Piece.scope (rename : Text → Text) (p : Piece) : Text :=
  if p.isScoped then Search.replace classPattern (fun name => Byte.dot :: rename name) p.text
  else p.text

/-- The classes a piece names. -/
def Piece.classes (p : Piece) : List Text :=
  if p.isScoped then (Search.hits classPattern p.text).map (·.found) else []

/-- The stylesheet with its classes renamed. -/
def scope (rename : Text → Text) (css : Text) : Text := (pieces css).flatMap (Piece.scope rename)

/-- The classes a stylesheet names, each once, in the order in which they are first seen. -/
def classes (css : Text) : List Text := ((pieces css).flatMap Piece.classes).eraseDups

/-- The classes a stylesheet names, each with its new name. -/
def classMap (rename : Text → Text) (css : Text) : List (Text × Text) :=
  (classes css).map fun name => (name, rename name)

/-- The script whose default export maps each class to its new name, in ascending order. -/
def classModule (classes : List (Text × Text)) : Text :=
  let sorted := classes.mergeSort fun x y => Text.le x.1 y.1
  let lines : Text := sorted.flatMap fun (name, new) =>
    ("\n  " : Text) ++ Text.quote name ++ ": " ++ Text.quote new ++ ","
  let lineEnd : Text := if sorted.isEmpty then [] else "\n"
  ("export default \x7b" : Text) ++ lines ++ lineEnd ++ "\x7d;\n"

end Stylesheet

end MiniProgram
