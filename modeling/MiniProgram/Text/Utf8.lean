import MiniProgram.Text.Basic

/-!
UTF-8: reading a text as code points and writing code points back.

Reading never fails: a byte that starts no well-formed sequence is read on its own as the
replacement character U+FFFD, so every text has a sequence of code points (`runes`), and a text is
`valid` when no byte had to be replaced. A well-formed sequence is the shortest one for its code
point and encodes neither a surrogate nor a value above U+10FFFF.
-/

namespace MiniProgram

namespace Rune

/-- The replacement character, read for a byte that starts no well-formed sequence. -/
def replacement : Nat := 0xFFFD

/-- Whether a number is a code point that text can hold: at most U+10FFFF and no surrogate. -/
def isScalar (c : Nat) : Bool := c < 0xD800 || (0xE000 ≤ c && c ≤ 0x10FFFF)

/-- The UTF-8 bytes of a code point; those of the replacement character if it is no scalar. -/
def encode (c : Nat) : Text :=
  let c := if isScalar c then c else replacement
  if c < 0x80 then [c.toUInt8]
  else if c < 0x800 then [(0xC0 + c / 0x40).toUInt8, (0x80 + c % 0x40).toUInt8]
  else if c < 0x10000 then
    [(0xE0 + c / 0x1000).toUInt8, (0x80 + c / 0x40 % 0x40).toUInt8, (0x80 + c % 0x40).toUInt8]
  else
    [(0xF0 + c / 0x40000).toUInt8, (0x80 + c / 0x1000 % 0x40).toUInt8,
      (0x80 + c / 0x40 % 0x40).toUInt8, (0x80 + c % 0x40).toUInt8]

/-- A continuation byte of a multi-byte sequence. -/
def isContinuation (b : UInt8) : Bool := 0x80 ≤ b && b ≤ 0xBF

/-- The code point at the head of a non-empty text and the number of bytes after the first that
belong to it; `none` if the first byte starts no well-formed sequence. -/
def read? (b : UInt8) (rest : Text) : Option (Nat × Nat) :=
  if b < 0x80 then some (b.toNat, 0)
  else if 0xC2 ≤ b && b ≤ 0xDF then
    match rest with
    | c :: _ =>
      if isContinuation c then some ((b.toNat - 0xC0) * 0x40 + (c.toNat - 0x80), 1) else none
    | _ => none
  else if 0xE0 ≤ b && b ≤ 0xEF then
    match rest with
    | c :: d :: _ =>
      let code := (b.toNat - 0xE0) * 0x1000 + (c.toNat - 0x80) * 0x40 + (d.toNat - 0x80)
      if isContinuation c && isContinuation d && 0x800 ≤ code && isScalar code then some (code, 2)
      else none
    | _ => none
  else if 0xF0 ≤ b && b ≤ 0xF4 then
    match rest with
    | c :: d :: e :: _ =>
      let code := (b.toNat - 0xF0) * 0x40000 + (c.toNat - 0x80) * 0x1000 + (d.toNat - 0x80) * 0x40
        + (e.toNat - 0x80)
      if isContinuation c && isContinuation d && isContinuation e && 0x10000 ≤ code && isScalar code
      then some (code, 3)
      else none
    | _ => none
  else none

end Rune

namespace Text

/-- The code points of a text with the bytes each was read from; `skip` bytes belong to a code
point already listed. -/
def runeSpansFrom : (skip : Nat) → Text → List (Option Nat × Text)
  | _, [] => []
  | skip + 1, _ :: t => runeSpansFrom skip t
  | 0, b :: t =>
    match Rune.read? b t with
    | some (c, more) => (some c, b :: t.take more) :: runeSpansFrom more t
    | none => (none, [b]) :: runeSpansFrom 0 t

/-- The code points of a text with the bytes each was read from; `none` marks a byte that starts
no well-formed sequence. -/
def runeSpans (t : Text) : List (Option Nat × Text) := runeSpansFrom 0 t

/-- The code points of a text, the replacement character for every ill-formed byte. -/
def runes (t : Text) : List Nat := (runeSpans t).map fun (c, _) => c.getD Rune.replacement

/-- The UTF-8 text of a sequence of code points. -/
def ofRunes (cs : List Nat) : Text := cs.flatMap Rune.encode

/-- Whether a text is well-formed UTF-8. -/
def valid (t : Text) : Bool := (runeSpans t).all fun (c, _) => c.isSome

/-- The text with every ill-formed byte replaced by U+FFFD. -/
def toValid (t : Text) : Text := ofRunes (runes t)

end Text

end MiniProgram
