import MiniProgram.Number.Binary64
import MiniProgram.Text.Basic

/-!
Decimal texts of double-precision numbers.

`Binary64.read?` reads decimal and hexadecimal numerals and the words for infinities and for no
number; `Binary64.shortest` writes the fewest digits that read back as the same number, without an
exponent, and `Binary64.fixed` writes a given number of places.
-/

namespace MiniProgram

namespace Binary64

/-! ### Reading -/

/-- Why a text is no number. -/
inductive ReadFlaw where
  | malformed
  /-- The numeral stands for a value beyond the greatest finite number. -/
  | outOfRange
deriving DecidableEq, Repr

/-- The digits at the head of a text with the underscores between them, and the rest. -/
def spanDigits (isDigit : UInt8 → Bool) (t : Text) : Text × Text :=
  let run (b : UInt8) := isDigit b || b == Byte.underscore
  (t.takeWhile run, t.dropWhile run)

/-- The value of some digits in a base, underscores aside. -/
def digitsValue (base : Nat) (t : Text) : Nat :=
  (t.filterMap Byte.hexValue?).foldl (fun n d => base * n + d) 0

/-- The number of digits, underscores aside. -/
def digitCount (t : Text) : Nat := (t.filter (· ≠ Byte.underscore)).length

/-- The exponent after its mark: a sign and digits. -/
def exponent? (t : Text) : Option (Int × Text) :=
  let (negative, digits) := match t with
    | Byte.plus :: r => (false, r)
    | Byte.hyphen :: r => (true, r)
    | _ => (false, t)
  let (run, rest) := spanDigits Byte.isDigit digits
  if !digits.head?.any Byte.isDigit then none
  else
    let n := digitsValue 10 run
    some (if negative then -(n : Int) else n, rest)

/-- The value of an unsigned numeral in base 10 or 16, as a sign-less number; `mark` introduces the
exponent, which a hexadecimal numeral must have. -/
def numeral? (base : Nat) (isDigit : UInt8 → Bool) (mark : UInt8) (t : Text) :
    Option (Nat × Int) := do
  let (whole, rest) := spanDigits isDigit t
  let (part, rest) := match rest with
    | Byte.dot :: r => spanDigits isDigit r
    | _ => ([], rest)
  if digitCount whole + digitCount part = 0 then none
  else
    let mantissa := digitsValue base (whole ++ part)
    let shift : Int := if base = 16 then -4 * digitCount part else -digitCount part
    match rest with
    | [] => if base = 16 then none else some (mantissa, shift)
    | b :: r =>
      if Byte.toLower b = mark then
        match exponent? r with
        | some (e, []) => some (mantissa, shift + e)
        | _ => none
      else none

/-- Whether every underscore stands between two digits, `last` being the kind of the byte before:
`some true` for a digit, `some false` for an underscore. -/
def separatesDigits (isDigit : UInt8 → Bool) : (last : Option Bool) → Text → Bool
  | last, [] => last ≠ some false
  | last, b :: t =>
    if isDigit b then separatesDigits isDigit (some true) t
    else if b = Byte.underscore then last = some true && separatesDigits isDigit (some false) t
    else last ≠ some false && separatesDigits isDigit none t

/-- A hexadecimal digit. -/
def isHexDigit (b : UInt8) : Bool := (Byte.hexValue? b).isSome

/-- The magnitude an unsigned numeral stands for. -/
def magnitude? (negative : Bool) (t : Text) : Option Binary64 :=
  match t with
  | Byte.zero :: x :: rest =>
    if Byte.toLower x = 120 then
      if separatesDigits isHexDigit (some true) rest then
        (numeral? 16 isHexDigit 112 rest).map fun (m, e) => ofScaled negative 2 m e
      else none
    else decimal? negative t
  | _ => decimal? negative t
where
  /-- The magnitude of a decimal numeral. -/
  decimal? (negative : Bool) (t : Text) : Option Binary64 :=
    if separatesDigits Byte.isDigit none t then
      (numeral? 10 Byte.isDigit 101 t).map fun (m, e) => ofScaled negative 10 m e
    else none

/-- The number a text stands for. -/
def read? (t : Text) : Except ReadFlaw Binary64 :=
  let (negative, body) := match t with
    | Byte.plus :: r => (false, r)
    | Byte.hyphen :: r => (true, r)
    | _ => (false, t)
  let word := body.map Byte.toLower
  if word = ("inf" : Text) || word = ("infinity" : Text) then .ok (infinity negative)
  else if t.map Byte.toLower = ("nan" : Text) then .ok nan
  else
    match magnitude? negative body with
    | none => .error .malformed
    | some (infinity _) => .error .outOfRange
    | some x => .ok x

/-! ### Writing -/

/-- The number of digits before the decimal point of `n / d`, both positive; for a quotient below
one, minus the number of zeros right after the point. -/
def pointPosition (n d : Nat) : Int :=
  if d ≤ n then (Text.ofNat (n / d)).length
  else
    let zeros := (Text.ofNat (d / n)).length - 1
    if n * Nat.pow 10 zeros < d then -zeros else 1 - zeros

/-- The number with the given digits that is nearest to `x = n / d` and reads back as `x`, if one
does: an integer times the power of ten `e`. -/
def digitsAt? (x : Binary64) (n d : Nat) (e : Int) : Option (Nat × Int) :=
  let (n', d') := scaled 10 n d e
  let nearest := roundedQuotient n' d'
  let below := n' / d'
  let other := if nearest = below then below + 1 else below
  ([nearest, other].find? fun c => ofScaled x.negative 10 c e = x).map fun c => (c, e)

/-- The fewest digits that read back as a finite number `n / d`: an integer and a power of ten. -/
def shortestDigits (x : Binary64) (n d : Nat) : Nat × Int :=
  let point := pointPosition n d
  (((List.range 17).findSome? fun k => digitsAt? x n d (point - (k + 1 : Nat)))).getD (0, 0)

/-- An integer times a power of ten in positional notation, without trailing zeros after the
point. -/
def positional (digits : Nat) (e : Int) : Text :=
  let t := Text.ofNat digits
  if 0 ≤ e then t ++ List.replicate e.toNat Byte.zero
  else
    let places := (-e).toNat
    let padded := List.replicate (places + 1 - t.length) Byte.zero ++ t
    let whole := padded.take (padded.length - places)
    let part := ((padded.drop (padded.length - places)).reverse.dropWhile (· = Byte.zero)).reverse
    if part = [] then whole else whole ++ "." ++ part

/-- The sign of a number in front of its magnitude. -/
def signed (negative : Bool) (t : Text) : Text := if negative then Byte.hyphen :: t else t

/-- The text of a number that is not finite. -/
def special : Binary64 → Text
  | infinity true => "-Inf"
  | infinity false => "+Inf"
  | _ => "NaN"

/-- The shortest positional text that reads back as the same number. -/
def shortest : Binary64 → Text
  | finite s m e =>
    if m = 0 then signed s "0"
    else
      let (n, d) := ratio m e
      let (digits, power) := shortestDigits (finite s m e) n d
      signed s (positional digits power)
  | x => special x

/-- A number with exactly the given places after the point, a tie going to the even digit. -/
def fixed (places : Nat) : Binary64 → Text
  | finite s m e =>
    let (n, d) := ratio m e
    let t := Text.ofNat (roundedQuotient (n * Nat.pow 10 places) d)
    let padded := List.replicate (places + 1 - t.length) Byte.zero ++ t
    let whole := padded.take (padded.length - places)
    signed s (if places = 0 then whole else whole ++ "." ++ padded.drop (padded.length - places))
  | x => special x

end Binary64

end MiniProgram
