import MiniProgram.Number.Decimal

/-!
Durations, as reports show them: whole milliseconds below a second, else seconds with one place. The
quotient is taken as a floating-point number, and a half goes to the even neighbour.
-/

namespace MiniProgram

/-- A span of time in nanoseconds. -/
structure Duration where
  nanoseconds : Int
deriving DecidableEq, Repr

namespace Duration

/-- The nanoseconds of a millisecond. -/
def millisecond : Nat := 1000000

/-- The nanoseconds of a second. -/
def second : Nat := 1000000000

/-- The text of a duration. -/
def render (d : Duration) : Text :=
  let n := Binary64.ofInt d.nanoseconds
  if d.nanoseconds < second then Binary64.fixed 0 (n.divNat millisecond) ++ "ms"
  else Binary64.fixed 1 (n.divNat second) ++ "s"

end Duration

end MiniProgram
