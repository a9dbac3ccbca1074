import MiniProgram.Fingerprint
import MiniProgram.Proofs.Text.Numeral

/-!
What a fingerprint tells of a text.

The hash depends on a text through one number modulo a prime, and the short form keeps the leading
digits of the hash, so texts with one short form are told by their hashes.

* `ofText_exchange`: two bytes of a text may be exchanged for others without a change of its hash.
* `short_eq_numeral`: a short form is a numeral.
* `short_eq_short_iff`: **the texts with one short form.**
-/

namespace MiniProgram

namespace Fingerprint

variable {t u before after : Text} {c d c' d' : UInt8} {m n : ℕ}

lemma ofText_lt (t : Text) : ofText t < modulus := by
  rw [ofText]
  obtain rfl | ⟨t, b, rfl⟩ := List.eq_nil_or_concat t
  · decide
  · rw [List.concat_eq_append, List.foldl_append]
    exact Nat.mod_lt _ (by decide)

/-- Two bytes in a row count as one number: others that make up the same number leave the hash as it
is. -/
lemma ofText_exchange (h : c.toNat * 31 + d.toNat = c'.toNat * 31 + d'.toNat) :
    ofText (before ++ c :: d :: after) = ofText (before ++ c' :: d' :: after) := by
  have htwo : ∀ k, ((k * 31 + c.toNat) % modulus * 31 + d.toNat) % modulus
      = ((k * 31 + c'.toNat) % modulus * 31 + d'.toNat) % modulus := by
    intro k
    rw [modulus]
    omega
  simp only [ofText, List.foldl_append, List.foldl_cons, htwo]

/-! ### The short form -/

/-- The number that the first `n` digits of `m` in base 36 stand for. -/
def leading (n m : ℕ) : ℕ := if m < 36 ^ n then m else leading n (m / 36)
termination_by m
decreasing_by
  have : 0 < 36 ^ n := by positivity
  omega

lemma leading_of_lt (h : m < 36 ^ n) : leading n m = m := by rw [leading, if_pos h]

lemma leading_of_le (h : 36 ^ n ≤ m) : leading n m = leading n (m / 36) := by
  rw [leading, if_neg (Nat.not_lt.2 h)]

/-- The first digits of a numeral are the numeral of the number they stand for. -/
lemma take_ofNatBase (hn : 0 < n) (m : ℕ) :
    (Text.ofNatBase 36 m).take n = Text.ofNatBase 36 (leading n m) := by
  induction m using Nat.strong_induction_on with
  | _ m ih =>
      obtain hm | hm := lt_or_ge m (36 ^ n)
      · rw [leading_of_lt hm, List.take_of_length_le]
        rwa [Text.length_ofNatBase_le_iff (by decide) hn]
      · -- the numeral has more than `n` digits, and its last one is not among the first `n`
        have hbase : 36 ≤ m := (Nat.le_self_pow hn.ne' 36).trans hm
        have hlong : n < (Text.ofNatBase 36 m).length := by
          rwa [← Nat.not_le, Text.length_ofNatBase_le_iff (by decide) hn, Nat.not_lt]
        rw [Text.ofNatBase_of_le (by decide) hbase, List.length_append, List.length_singleton]
          at hlong
        rw [leading_of_le hm, ← ih _ (Nat.div_lt_self (by omega) (by decide)),
          Text.ofNatBase_of_le (by decide) hbase,
          List.take_append_of_le_length (Nat.lt_succ_iff.1 hlong)]

lemma short_eq_numeral (hn : 0 < n) (t : Text) :
    short t n = Text.ofNatBase 36 (leading n (ofText t)) := take_ofNatBase hn (ofText t)

/-- **The texts with one short form** are those whose hashes have the same leading digits. -/
theorem short_eq_short_iff (hn : 0 < n) :
    short t n = short u n ↔ leading n (ofText t) = leading n (ofText u) := by
  rw [short_eq_numeral hn, short_eq_numeral hn,
    (Text.ofNatBase_injective (by decide) (by decide)).eq_iff]

end Fingerprint

end MiniProgram
