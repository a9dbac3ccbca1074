import MiniProgram.Text.Utf8

/-!
Blank space: the code points with the Unicode property White_Space, the trimming of blanks from
both ends of a text, and the blank-separated fields of a text.

A byte that is no well-formed UTF-8 is not blank, so it is kept like any other.
-/

namespace MiniProgram

namespace Rune

/-- A code point with the property White_Space. -/
def isBlank (c : Nat) : Bool :=
  (9 ≤ c && c ≤ 13) || c == 0x20 || c == 0x85 || c == 0xA0 || c == 0x1680
    || (0x2000 ≤ c && c ≤ 0x200A) || c == 0x2028 || c == 0x2029 || c == 0x202F || c == 0x205F
    || c == 0x3000

end Rune

namespace Text

/-- Whether a code point read from a text is blank. -/
def isBlankSpan (span : Option Nat × Text) : Bool := span.1.any Rune.isBlank

/-- The text without blanks at either end. -/
def trim (t : Text) : Text :=
  let inner := (runeSpans t).dropWhile isBlankSpan
  ((inner.reverse.dropWhile isBlankSpan).reverse).flatMap Prod.snd

/-- The fields of the remaining spans, given the field read so far. -/
def fieldsFrom : Text → List (Option Nat × Text) → List Text
  | field, [] => if field = [] then [] else [field]
  | field, span :: spans =>
    if isBlankSpan span then
      if field = [] then fieldsFrom [] spans else field :: fieldsFrom [] spans
    else fieldsFrom (field ++ span.2) spans

/-- The maximal runs of the text that hold no blank, in order. -/
def fields (t : Text) : List Text := fieldsFrom [] (runeSpans t)

end Text

end MiniProgram
