import MiniProgram.Text.Basic

/-!
Fingerprints: a polynomial hash of a text modulo a prime, and its short base-36 form, which scopes
the class names of one stylesheet module.
-/

namespace MiniProgram

namespace Fingerprint

/-- The modulus of the hash. -/
def modulus : Nat := 1000000007

/-- The hash of a text: its bytes as digits in base 31, modulo a prime. -/
def ofText (t : Text) : Nat := t.foldl (fun h b => (h * 31 + b.toNat) % modulus) 0

/-- The decimal numeral of the hash. -/
def decimal (t : Text) : Text := Text.ofNat (ofText t)

/-- The first `n` digits of the hash in base 36, all of them if it has no more. -/
def short (t : Text) (n : Nat) : Text := (Text.ofNatBase 36 (ofText t)).take n

end Fingerprint

end MiniProgram
