/-!
Double-precision binary numbers in exact integer arithmetic.

A finite number is a signed mantissa times a power of two: the mantissa is below `2 ^ 53`, the
exponent lies between `-1074` and `971`, and the mantissa is at least `2 ^ 52` unless the exponent
is the least one. Every operation rounds the exact quotient to the nearest such number, a tie going
to the even mantissa, so that results can be reasoned about in `Nat`.
-/

namespace MiniProgram

/-- A double-precision binary number. -/
inductive Binary64 where
  | nan
  | infinity (negative : Bool)
  | finite (negative : Bool) (mantissa : Nat) (exponent : Int)
deriving DecidableEq, Repr

/-- The quotient of two numbers rounded to the nearest integer, a tie to the even one. -/
def roundedQuotient (n d : Nat) : Nat :=
  let q := n / d
  let r := n % d
  if 2 * r < d then q
  else if d < 2 * r then q + 1
  else if q % 2 = 0 then q
  else q + 1

namespace Binary64

/-- The least exponent of a finite number. -/
def leastExponent : Int := -1074

/-- The greatest exponent of a finite number. -/
def greatestExponent : Int := 971

/-- Zero with a sign. -/
def zero (negative : Bool) : Binary64 := finite negative 0 leastExponent

/-- Numerator and denominator of `n / d` divided by `base ^ e`. -/
def scaled (base : Nat) (n d : Nat) (e : Int) : Nat × Nat :=
  if 0 ≤ e then (n, d * Nat.pow base e.toNat) else (n * Nat.pow base (-e).toNat, d)

/-- The mantissa from which on a greater exponent is needed: `2 ^ 53`. -/
def mantissaLimit : Nat := 9007199254740992

/-- The exponent with which `n / d` has a mantissa of 53 bits, or the least exponent if that is
greater. -/
def exponentFor (n d : Nat) : Int :=
  let e : Int := n.log2 - d.log2 - 53
  let (n', d') := scaled 2 n d e
  let e := if n' / d' < mantissaLimit then e else e + 1
  max e leastExponent

/-- The number nearest to the quotient of two natural numbers, the second one positive. -/
def ofRatio (negative : Bool) (n d : Nat) : Binary64 :=
  if n = 0 then zero negative
  else
    let e := exponentFor n d
    let (n', d') := scaled 2 n d e
    let m := roundedQuotient n' d'
    let (m, e) := if m = mantissaLimit then (mantissaLimit / 2, e + 1) else (m, e)
    if greatestExponent < e then infinity negative else finite negative m e

/-- The number nearest to a natural number times a power of a base of at most 10. Far beyond the
range of finite numbers it is infinite or zero whatever the digits are. -/
def ofScaled (negative : Bool) (base n : Nat) (e : Int) : Binary64 :=
  let magnitude : Int := n.log2 + base.log2 * e
  if n = 0 then zero negative
  else if 0 ≤ e then
    if 1100 < magnitude then infinity negative else ofRatio negative (n * Nat.pow base e.toNat) 1
  else if magnitude < -1200 then zero negative
  else ofRatio negative n (Nat.pow base (-e).toNat)

/-- The number nearest to an integer. -/
def ofInt (i : Int) : Binary64 := ofRatio (i < 0) i.natAbs 1

/-- The magnitude of a finite number as a quotient of natural numbers. -/
def ratio (mantissa : Nat) (exponent : Int) : Nat × Nat :=
  if 0 ≤ exponent then (mantissa * Nat.pow 2 exponent.toNat, 1)
  else (mantissa, Nat.pow 2 (-exponent).toNat)

/-- The sign of a number; that of no number is positive. -/
def negative : Binary64 → Bool
  | nan => false
  | infinity s => s
  | finite s _ _ => s

/-- The rounded product. -/
def mul : Binary64 → Binary64 → Binary64
  | nan, _ | _, nan => nan
  | infinity s, infinity t => infinity (s != t)
  | infinity s, finite t m _ | finite s m _, infinity t => if m = 0 then nan else infinity (s != t)
  | finite s m e, finite t n f =>
    let (a, b) := ratio m e
    let (c, d) := ratio n f
    ofRatio (s != t) (a * c) (b * d)

/-- The rounded quotient of a number and a positive natural number. -/
def divNat : Binary64 → Nat → Binary64
  | nan, _ => nan
  | infinity s, _ => infinity s
  | finite s m e, k =>
    let (a, b) := ratio m e
    ofRatio s a (b * k)

/-- The integer a number is truncated to toward zero, if it is finite. -/
def truncate? : Binary64 → Option Int
  | finite s m e =>
    let (a, b) := ratio m e
    some (if s then -(a / b : Nat) else (a / b : Nat))
  | _ => none

/-- Whether a number is zero. -/
def isZero : Binary64 → Bool
  | finite _ m _ => m = 0
  | _ => false

end Binary64

end MiniProgram
