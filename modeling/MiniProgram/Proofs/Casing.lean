import MiniProgram.Proofs.Platform.Component
import MiniProgram.Proofs.Text.Utf8

/-!
Casing and the bytes that would end an attribute.

The bytes that a native name may not hold are of ASCII, and none of them is a letter or the hyphen.
A code point beyond ASCII is written by bytes beyond ASCII, and lower case makes it another such
code point or a letter. So the casing rules make no such byte, whatever the name they start from.

* `Rune.le_or_letter_toLower`: code points beyond ASCII.
* `Casing.Allowed`: code points without a forbidden byte.
* `Casing.isNativeName_native`: **the casing rules keep names native.**
-/

namespace MiniProgram

/-! ### Code points beyond ASCII -/

namespace Rune

variable {c : ℕ}

/-- Lower case takes a code point beyond ASCII to another one, or to a letter. -/
lemma le_or_letter_toLower (h : 0x80 ≤ c) :
    0x80 ≤ toLower c ∨ 97 ≤ toLower c ∧ toLower c ≤ 122 := by
  have htable : ∀ row ∈ loweringTable, 0x80 ≤ (row.1 : ℤ) + row.2.2.2
      ∨ row.1 = row.2.1 ∧ 97 ≤ (row.1 : ℤ) + row.2.2.2 ∧ (row.1 : ℤ) + row.2.2.2 ≤ 122 := by
    decide +kernel
  rw [toLower, if_neg (by omega)]
  split
  · rename_i first last step shift hfind
    have hrow := htable _ (List.mem_of_find?_eq_some hfind)
    have hrange := List.find?_some hfind
    simp only [Bool.and_eq_true, decide_eq_true_eq] at hrange hrow
    omega
  · exact Or.inl h

end Rune

/-! ### Casing -/

namespace Casing

open Component (forbidden isNativeName isNativeName_iff)

variable {c : ℕ} {cs : List ℕ} {t u marker prop : Text}

/-- A code point that is written without a byte that a native name may not hold. -/
def Allowed (c : ℕ) : Prop := ∀ b ∈ Rune.encode c, b ∉ forbidden

instance decidableAllowed : DecidablePred Allowed := fun c =>
  inferInstanceAs (Decidable (∀ b ∈ Rune.encode c, b ∉ forbidden))

lemma allowed_of_le (h : 0x80 ≤ c) : Allowed c := fun b hb hmem => by
  have hascii : ∀ b ∈ forbidden, b < 0x80 := by decide
  exact UInt8.not_lt.2 (Rune.le_of_mem_encode h hb) (hascii b hmem)

lemma allowed_letter : ∀ c < 123, 97 ≤ c → Allowed c := by decide

/-- Lower case makes no forbidden byte. -/
lemma Allowed.toLower (h : Allowed c) : Allowed (Rune.toLower c) := by
  by_cases hc : 0x80 ≤ c
  · rcases Rune.le_or_letter_toLower hc with hlower | ⟨hlower, hle⟩
    · exact allowed_of_le hlower
    · exact allowed_letter _ (Nat.lt_succ_of_le hle) hlower
  · rw [Rune.toLower, if_pos (Nat.not_le.1 hc)]
    split_ifs with hupper
    · simp only [Bool.and_eq_true, decide_eq_true_eq] at hupper
      exact allowed_letter _ (by omega) (by omega)
    · exact h

lemma allowed_kebabFrom {prev : Option ℕ} (h : ∀ c ∈ cs, Allowed c) :
    ∀ c ∈ kebabFrom prev cs, Allowed c := by
  induction cs generalizing prev with
  | nil => simp [kebabFrom]
  | cons c cs ih =>
      obtain ⟨hc, hcs⟩ := List.forall_mem_cons.1 h
      have hrest := @ih (some c) hcs
      have hhyphen : Allowed Byte.hyphen.toNat := by decide
      rw [kebabFrom]
      split_ifs
      · exact List.forall_mem_cons.2 ⟨hhyphen, List.forall_mem_cons.2 ⟨hc.toLower, hrest⟩⟩
      · exact List.forall_mem_cons.2 ⟨hc.toLower, hrest⟩
      · exact List.forall_mem_cons.2 ⟨hc, hrest⟩

/-- The code points of a native name. -/
lemma allowed_of_mem_runes (h : isNativeName t = true) : ∀ c ∈ t.runes, Allowed c := by
  intro c hc
  rcases Text.exists_of_mem_runes hc with ⟨b, hb, rfl⟩ | hc
  · by_cases hascii : b.toNat < 0x80
    · rw [Allowed, Rune.encode_of_lt hascii]
      simpa using isNativeName_iff.1 h b hb
    · exact allowed_of_le (Nat.not_lt.1 hascii)
  · exact allowed_of_le hc

lemma isNativeName_ofRunes (h : ∀ c ∈ cs, Allowed c) : isNativeName (Text.ofRunes cs) = true := by
  rw [isNativeName_iff]
  intro b hb
  obtain ⟨c, hc, hb⟩ := List.mem_flatMap.1 hb
  exact h c hc b hb

lemma isNativeName_append :
    isNativeName (t ++ u) = true ↔ isNativeName t = true ∧ isNativeName u = true := by
  simp only [isNativeName_iff, List.forall_mem_append]

lemma isNativeName_eventBinding (hmarker : isNativeName marker = true)
    (h : isNativeName prop = true) : isNativeName (eventBinding marker prop) = true := by
  have hevent : isNativeName (Text.trimStart prop "on") = true := by
    obtain ⟨u, hu⟩ := Text.trimStart_suffix prop "on"
    rw [← hu, isNativeName_append] at h
    exact h.2
  refine isNativeName_append.2 ⟨hmarker, isNativeName_ofRunes fun c hc => ?_⟩
  obtain ⟨d, hd, rfl⟩ := List.mem_map.1 hc
  exact (allowed_of_mem_runes hevent d hd).toLower

/-- **The casing rules keep names native**: the name they make of a prop holds a forbidden byte only
if the marker or the prop does. -/
theorem isNativeName_native (hmarker : isNativeName marker = true)
    (h : isNativeName prop = true) : isNativeName (native marker prop) = true := by
  rw [native]
  split_ifs
  · exact isNativeName_eventBinding hmarker h
  · exact isNativeName_ofRunes (allowed_kebabFrom (allowed_of_mem_runes h))

end Casing

end MiniProgram
