import Mathlib.Data.Nat.Digits.Lemmas
import Mathlib.Tactic
import MiniProgram.Text.Basic

/-!
Numerals.

A numeral lists the digits of a number, the highest first; zero is written by one digit.

* `ofNatBase_of_lt`, `ofNatBase_of_le`: a numeral is that of all digits but the last, and the last.
* `exists_digit_of_mem_ofNatBase`, `isDigit_of_mem_ofNat`: what a numeral is written in.
* `length_ofNatBase_le_iff`: how many digits a number has.
* `ofNatBase_injective`: **a number is determined by its numeral.**
-/

namespace MiniProgram

namespace Text

variable {base fuel n k : ℕ} {b : UInt8}

/-- On enough fuel, the digits of a positive number are those of the library. -/
lemma digitsOn_eq_digits (hbase : 2 ≤ base) (hn : 0 < n) (hfuel : n < 2 ^ fuel) :
    digitsOn base fuel n = (Nat.digits base n).map Byte.ofDigit := by
  induction fuel generalizing n with
  | zero => omega
  | succ fuel ih =>
      rw [digitsOn, Nat.digits_def' hbase hn, List.map_cons]
      by_cases hlt : n < base
      · rw [if_pos hlt, Nat.mod_eq_of_lt hlt, Nat.div_eq_of_lt hlt, Nat.digits_zero, List.map_nil]
      · have hquotient : n / base < 2 ^ fuel := by
          rw [Nat.div_lt_iff_lt_mul (by omega)]
          calc n < 2 ^ fuel * 2 := by rwa [← Nat.pow_succ]
            _ ≤ 2 ^ fuel * base := Nat.mul_le_mul_left _ hbase
        rw [if_neg hlt, ih (Nat.div_pos (Nat.not_lt.1 hlt) (by omega)) hquotient]

lemma ofNatBase_eq_digits (hbase : 2 ≤ base) (hn : 0 < n) :
    ofNatBase base n = ((Nat.digits base n).map Byte.ofDigit).reverse := by
  rw [ofNatBase, digitsOn_eq_digits hbase hn Nat.lt_log2_self]

/-- A number below the base is written by one digit. -/
lemma ofNatBase_of_lt (h : n < base) : ofNatBase base n = [Byte.ofDigit n] := by
  rw [ofNatBase, digitsOn, if_pos h, List.reverse_singleton]

/-- The last digit comes off the end of a numeral. -/
lemma ofNatBase_of_le (hbase : 2 ≤ base) (h : base ≤ n) :
    ofNatBase base n = ofNatBase base (n / base) ++ [Byte.ofDigit (n % base)] := by
  have hquotient : 0 < n / base := Nat.div_pos h (by omega)
  rw [ofNatBase_eq_digits hbase (by omega), Nat.digits_def' hbase (by omega), List.map_cons,
    List.reverse_cons, ← ofNatBase_eq_digits hbase hquotient]

/-- A numeral is written in the digits of its base. -/
lemma exists_digit_of_mem_ofNatBase (hbase : 2 ≤ base) (h : b ∈ ofNatBase base n) :
    ∃ d < base, Byte.ofDigit d = b := by
  obtain rfl | hn := n.eq_zero_or_pos
  · rw [ofNatBase_of_lt (by omega), List.mem_singleton] at h
    exact ⟨0, by omega, h.symm⟩
  · rw [ofNatBase_eq_digits hbase hn, List.mem_reverse, List.mem_map] at h
    obtain ⟨d, hd, rfl⟩ := h
    exact ⟨d, Nat.digits_lt_base hbase hd, rfl⟩

lemma isDigit_of_mem_ofNat (h : b ∈ ofNat n) : Byte.isDigit b = true := by
  have hdigit : ∀ d < 10, Byte.isDigit (Byte.ofDigit d) = true := by decide
  obtain ⟨d, hd, rfl⟩ := exists_digit_of_mem_ofNatBase (by decide) h
  exact hdigit d hd

/-- A number has at most `k` digits exactly if it lies below that power of the base. -/
lemma length_ofNatBase_le_iff (hbase : 2 ≤ base) (hk : 0 < k) :
    (ofNatBase base n).length ≤ k ↔ n < base ^ k := by
  obtain rfl | hn := n.eq_zero_or_pos
  · rw [ofNatBase_of_lt (by omega), List.length_singleton]
    exact iff_of_true hk (by positivity)
  · rw [ofNatBase_eq_digits hbase hn, List.length_reverse, List.length_map,
      Nat.digits_length_le_iff hbase]

/-- **A number is determined by its numeral.** -/
lemma ofNatBase_injective (hbase : 2 ≤ base) (hletters : base ≤ 36) :
    Function.Injective (ofNatBase base) := by
  have hdigit : ∀ d < 36, ∀ e < 36, Byte.ofDigit d = Byte.ofDigit e → d = e := by decide
  intro n
  induction n using Nat.strong_induction_on with
  | _ n ih =>
      intro m h
      have hlength : ∀ k, (ofNatBase base k).length ≤ 1 ↔ k < base := fun k => by
        rw [length_ofNatBase_le_iff hbase one_pos, pow_one]
      have hone : n < base ↔ m < base := by rw [← hlength, ← hlength, h]
      by_cases hn : n < base
      · have hm := hone.1 hn
        rw [ofNatBase_of_lt hn, ofNatBase_of_lt hm, List.singleton_inj] at h
        exact hdigit n (by omega) m (by omega) h
      · have hm := mt hone.2 hn
        rw [ofNatBase_of_le hbase (by omega), ofNatBase_of_le hbase (Nat.not_lt.1 hm)] at h
        obtain ⟨hinit, hlast⟩ := List.append_inj' h rfl
        have hquotient := ih _ (Nat.div_lt_self (by omega) hbase) hinit
        have hmod : ∀ k, k % base < 36 := fun k => (Nat.mod_lt k (by omega)).trans_le hletters
        have hremainder := hdigit _ (hmod n) _ (hmod m) (List.singleton_inj.1 hlast)
        rw [← Nat.div_add_mod n base, ← Nat.div_add_mod m base, hquotient, hremainder]

lemma ofNat_injective : Function.Injective ofNat := ofNatBase_injective (by decide) (by decide)

end Text

end MiniProgram
