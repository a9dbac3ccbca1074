import MiniProgram.Number.Decimal
import MiniProgram.Text.Search

/-!
Lengths of a stylesheet: every length in `px` becomes one in `rpx`, its number multiplied by a
factor. Only the length itself changes; a number that belongs to a longer word, or is out of range,
is left alone.
-/

namespace MiniProgram

namespace Stylesheet

/-- A length in `px`: a number that no word and no dot runs into, directly followed by the word
`px`. Finds the number. -/
def pixelLength : Recognizer Text := fun before t =>
  if before.any fun b => Byte.isWord b || b == Byte.dot then none
  else
    let whole := t.takeWhile Byte.isDigit
    let (number, rest) := match t.dropWhile Byte.isDigit with
      | Byte.dot :: r => (whole ++ Byte.dot :: r.takeWhile Byte.isDigit, r.dropWhile Byte.isDigit)
      | rest => (whole, rest)
    if number.getLast?.any Byte.isDigit then
      match Text.after? "px" rest with
      | some rest => if Text.atWordEnd rest then some (number.length + 2, number) else none
      | none => none
    else none

/-- The length in `rpx` that stands for a length in `px`. -/
def responsiveLength (factor : Binary64) (number : Text) : Text :=
  match Binary64.read? number with
  | .ok x => (x.mul factor).shortest ++ "rpx"
  | .error _ => number ++ "px"

/-- The stylesheet with every length in `px` turned into one in `rpx`. -/
def pxToRpx (factor : Binary64) (css : Text) : Text :=
  Search.replace pixelLength (responsiveLength factor) css

end Stylesheet

end MiniProgram
