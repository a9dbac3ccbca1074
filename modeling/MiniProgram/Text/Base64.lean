import MiniProgram.Text.Basic

/-!
Base64: three bytes as four letters, padded with `=` at the end.
-/

namespace MiniProgram

namespace Base64

/-- The letter for a value below 64. -/
def letter (n : Nat) : UInt8 :=
  if n < 26 then (65 + n).toUInt8
  else if n < 52 then (71 + n).toUInt8
  else if n < 62 then (n - 4).toUInt8
  else if n = 62 then Byte.plus
  else Byte.slash

/-- The value of a letter. -/
def value? (b : UInt8) : Option Nat :=
  if Byte.isUpper b then some (b.toNat - 65)
  else if Byte.isLower b then some (b.toNat - 71)
  else if Byte.isDigit b then some (b.toNat + 4)
  else if b = Byte.plus then some 62
  else if b = Byte.slash then some 63
  else none

/-- The letters of a text. -/
def encode : Text → Text
  | [] => []
  | [a] => [letter (a.toNat / 4), letter (a.toNat % 4 * 16), Byte.equals, Byte.equals]
  | [a, b] =>
    [letter (a.toNat / 4), letter (a.toNat % 4 * 16 + b.toNat / 16), letter (b.toNat % 16 * 4),
      Byte.equals]
  | a :: b :: c :: rest =>
    letter (a.toNat / 4) :: letter (a.toNat % 4 * 16 + b.toNat / 16)
      :: letter (b.toNat % 16 * 4 + c.toNat / 64) :: letter (c.toNat % 64) :: encode rest

/-- The bytes of four letters, fewer if the last ones are padding. -/
def quantum? (w x y z : UInt8) : Option Text := do
  let a ← value? w
  let b ← value? x
  let first := (a * 4 + b / 16).toUInt8
  if y = Byte.equals && z = Byte.equals then return [first]
  let c ← value? y
  let second := (b % 16 * 16 + c / 4).toUInt8
  if z = Byte.equals then return [first, second]
  let d ← value? z
  return [first, second, (c % 4 * 64 + d).toUInt8]

/-- The bytes of some letters without line breaks. -/
def decodeLetters? : Text → Option Text
  | [] => some []
  | w :: x :: y :: z :: rest => do
    let bytes ← quantum? w x y z
    if bytes.length < 3 && rest ≠ [] then none
    else return bytes ++ (← decodeLetters? rest)
  | _ => none

/-- The bytes that letters stand for, line breaks aside. -/
def decode? (t : Text) : Option Text :=
  decodeLetters? (t.filter fun b => b ≠ Byte.newline && b ≠ Byte.carriageReturn)

end Base64

end MiniProgram
