import MiniProgram.Proofs.Text.Phrase
import MiniProgram.Proofs.Text.Utf8
import MiniProgram.Casing

/-!
The kebab-case form of an ASCII name.

In an ASCII name code points are bytes, and the form is spelled byte by byte: each byte in lower
case, and a hyphen in front of it if a word starts there. Whether one does is told by the byte, the
one before it and the one behind it, so the laws of the form are shown for the rest of a name behind
any byte.

* `startsWord`: where a hyphen is put.
* `kebab_eq_spellFrom`: the form, byte by byte.
* `spellFrom_eq_flatMap`: the form, position by position.
* `kebab_ascii`: **the laws of the form**.
-/

namespace MiniProgram

/-! ### ASCII letters -/

namespace Byte

variable {b : UInt8}

lemma rune_isUpper (h : b < 0x80) : Rune.isUpper b.toNat = isUpper b := by
  have hlow : b.toNat < 128 := UInt8.lt_iff_toNat_lt.1 h
  simp [Rune.isUpper, isUpper, hlow, UInt8.le_iff_toNat_le]

lemma rune_isLower (h : b < 0x80) : Rune.isLower b.toNat = isLower b := by
  have hlow : b.toNat < 128 := UInt8.lt_iff_toNat_lt.1 h
  simp [Rune.isLower, isLower, hlow, UInt8.le_iff_toNat_le]

lemma rune_isDigit (h : b < 0x80) : Rune.isDigit b.toNat = isDigit b := by
  have hlow : b.toNat < 128 := UInt8.lt_iff_toNat_lt.1 h
  simp [Rune.isDigit, isDigit, hlow, UInt8.le_iff_toNat_le]

lemma isUpper_iff : isUpper b = true ↔ 65 ≤ b.toNat ∧ b.toNat ≤ 90 := by
  simp [isUpper, UInt8.le_iff_toNat_le]

lemma toLower_of_not_isUpper (h : isUpper b = false) : toLower b = b := by simp [toLower, h]

lemma toNat_toLower_of_isUpper (h : isUpper b = true) : (toLower b).toNat = b.toNat + 32 := by
  have hrange := isUpper_iff.1 h
  have h32 : (32 : UInt8).toNat = 32 := rfl
  rw [toLower, if_pos h, UInt8.toNat_add, h32]
  omega

lemma rune_toLower (h : b < 0x80) : Rune.toLower b.toNat = (toLower b).toNat := by
  have hlow : b.toNat < 128 := UInt8.lt_iff_toNat_lt.1 h
  rw [Rune.toLower, if_pos hlow]
  cases hupper : isUpper b with
  | true => rw [toNat_toLower_of_isUpper hupper, if_pos (by simpa using isUpper_iff.1 hupper)]
  | false =>
      rw [toLower_of_not_isUpper hupper, if_neg]
      rw [← Bool.not_eq_true, isUpper_iff] at hupper
      simpa using hupper

/-- Lower case leads to no upper-case letter. -/
lemma isUpper_toLower (b : UInt8) : isUpper (toLower b) = false := by
  cases hupper : isUpper b with
  | true =>
      have hrange := isUpper_iff.1 hupper
      rw [← Bool.not_eq_true, isUpper_iff, toNat_toLower_of_isUpper hupper]
      omega
  | false => rw [toLower_of_not_isUpper hupper, hupper]

lemma toLower_lt (h : b < 0x80) : toLower b < 0x80 := by
  cases hupper : isUpper b with
  | true =>
      have hrange := isUpper_iff.1 hupper
      have h128 : (0x80 : UInt8).toNat = 128 := rfl
      rw [UInt8.lt_iff_toNat_lt, toNat_toLower_of_isUpper hupper, h128]
      omega
  | false => rwa [toLower_of_not_isUpper hupper]

/-- No letter becomes a hyphen. -/
lemma toLower_eq_hyphen_iff : toLower b = hyphen ↔ b = hyphen := by
  cases hupper : isUpper b with
  | true =>
      have hrange := isUpper_iff.1 hupper
      have hlower := toNat_toLower_of_isUpper hupper
      have hhyphen : hyphen.toNat = 45 := rfl
      constructor
      · intro h
        rw [h] at hlower
        omega
      · rintro rfl
        omega
  | false => rw [toLower_of_not_isUpper hupper]

end Byte

namespace Casing

variable {before after : Option UInt8} {b : UInt8} {name t front : Text}

/-! ### Byte by byte -/

/-- Whether a word starts with a byte of a name, given the bytes beside it: a capital behind a
lower-case letter or a digit, or the last capital of a run with a lower-case letter behind it. -/
def startsWord (before : Option UInt8) (b : UInt8) (after : Option UInt8) : Bool :=
  Byte.isUpper b && (before.any (fun a => Byte.isLower a || Byte.isDigit a)
    || before.any Byte.isUpper && after.any Byte.isLower)

/-- The hyphen in front of a byte with which a word starts. -/
def gap (before : Option UInt8) (b : UInt8) (after : Option UInt8) : Text :=
  if startsWord before b after then [Byte.hyphen] else []

/-- The kebab-case form of the rest of a name that follows `before`. -/
def spellFrom : (before : Option UInt8) → Text → Text
  | _, [] => []
  | before, b :: t => gap before b t.head? ++ Byte.toLower b :: spellFrom (some b) t

lemma gap_of_not_isUpper (h : Byte.isUpper b = false) : gap before b after = [] := by
  simp [gap, startsWord, h]

lemma gap_none (b : UInt8) (after : Option UInt8) : gap none b after = [] := by
  simp [gap, startsWord]

/-- In an ASCII name the classes of code points are those of bytes. -/
lemma breaksBefore_map (hbefore : ∀ a ∈ before, a < 0x80) (hafter : ∀ a ∈ after, a < 0x80) :
    breaksBefore (before.map UInt8.toNat) (after.map UInt8.toNat)
      = (before.any (fun a => Byte.isLower a || Byte.isDigit a)
        || before.any Byte.isUpper && after.any Byte.isLower) := by
  cases before with
  | none => rfl
  | some a =>
      have ha := hbefore a rfl
      cases after with
      | none => simp [breaksBefore, Byte.rune_isLower ha, Byte.rune_isDigit ha]
      | some c =>
          simp [breaksBefore, Byte.rune_isLower ha, Byte.rune_isDigit ha, Byte.rune_isUpper ha,
            Byte.rune_isLower (hafter c rfl)]

lemma ofRunes_kebabFrom (hbefore : ∀ a ∈ before, a < 0x80) (h : ∀ b ∈ t, b < 0x80) :
    Text.ofRunes (kebabFrom (before.map UInt8.toNat) (t.map UInt8.toNat)) = spellFrom before t := by
  induction t generalizing before with
  | nil => rfl
  | cons b t ih =>
      obtain ⟨hb, ht⟩ := List.forall_mem_cons.1 h
      have hrest := @ih (some b) (by simpa using hb) ht
      have hhead : ∀ a ∈ t.head?, a < 0x80 := fun a ha => ht a (List.mem_of_head? ha)
      have hlower : Rune.encode (Byte.toLower b).toNat = [Byte.toLower b] := by
        rw [Rune.encode_of_lt (UInt8.lt_iff_toNat_lt.1 (Byte.toLower_lt hb))]
        exact congrArg (fun a => [a]) UInt8.ofNat_toNat
      have hhyphen : Rune.encode Byte.hyphen.toNat = [Byte.hyphen] := by decide
      rw [Option.map_some] at hrest
      rw [List.map_cons, kebabFrom, List.head?_map, breaksBefore_map hbefore hhead,
        Byte.rune_isUpper hb, Byte.rune_toLower hb, spellFrom]
      cases hupper : Byte.isUpper b with
      | true =>
          rw [if_pos rfl, gap, startsWord, hupper, Bool.true_and]
          split_ifs <;> simp [Text.ofRunes, hlower, hhyphen, ← hrest]
      | false =>
          rw [if_neg Bool.false_ne_true, gap_of_not_isUpper hupper,
            Byte.toLower_of_not_isUpper hupper]
          rw [Byte.toLower_of_not_isUpper hupper] at hlower
          simp [Text.ofRunes, hlower, ← hrest]

/-- The kebab-case form of an ASCII name is spelled byte by byte. -/
lemma kebab_eq_spellFrom (h : ∀ b ∈ name, b < 0x80) : kebab name = spellFrom none name := by
  rw [kebab, Text.runes_of_ascii h]
  exact @ofRunes_kebabFrom none name nofun h

lemma toLower_eq_map (h : ∀ b ∈ name, b < 0x80) : Text.toLower name = name.map Byte.toLower := by
  have hlow : ∀ b ∈ name.map Byte.toLower, b < 0x80 := by
    simpa using fun b hb => Byte.toLower_lt (h b hb)
  rw [Text.toLower, Text.runes_of_ascii h, ← Text.ofRunes_map_toNat hlow, List.map_map,
    List.map_map]
  exact congrArg Text.ofRunes (List.map_congr_left fun b hb => Byte.rune_toLower (h b hb))

/-! ### Position by position -/

/-- The byte at a position of a name in lower case, behind a hyphen if a word starts with it. -/
def spelledAt (name : Text) : UInt8 × ℕ → Text
  | (b, i) => gap (name.take i).getLast? b name[i + 1]? ++ [Byte.toLower b]

lemma spellFrom_eq_flatMap (front t : Text) :
    spellFrom front.getLast? t = (t.zipIdx front.length).flatMap (spelledAt (front ++ t)) := by
  induction t generalizing front with
  | nil => rfl
  | cons b t ih =>
      have hrest := ih (front ++ [b])
      rw [List.getLast?_concat, List.length_append, List.length_singleton, List.append_assoc,
        List.singleton_append] at hrest
      have hnext : (front ++ b :: t)[front.length + 1]? = t.head? := by
        rw [List.getElem?_append_right (Nat.le_succ _)]
        simp [List.head?_eq_getElem?]
      rw [List.zipIdx_cons, List.flatMap_cons, spellFrom, hrest, spelledAt, List.take_left, hnext,
        List.append_assoc, List.singleton_append]

/-! ### Laws -/

lemma exists_of_mem_spellFrom {c : UInt8} (h : c ∈ spellFrom before t) :
    c = Byte.hyphen ∨ ∃ b ∈ t, c = Byte.toLower b := by
  induction t generalizing before with
  | nil => cases h
  | cons b t ih =>
      rw [spellFrom, List.mem_append, List.mem_cons] at h
      rcases h with h | rfl | h
      · rw [gap] at h
        split_ifs at h
        · exact Or.inl (List.mem_singleton.1 h)
        · cases h
      · exact Or.inr ⟨b, List.mem_cons_self, rfl⟩
      · exact (ih h).imp_right fun ⟨d, hd, heq⟩ => ⟨d, List.mem_cons_of_mem b hd, heq⟩

/-- A name without capitals stays as it is. -/
lemma spellFrom_eq_self (h : ∀ b ∈ t, Byte.isUpper b = false) : spellFrom before t = t := by
  induction t generalizing before with
  | nil => rfl
  | cons b t ih =>
      obtain ⟨hb, ht⟩ := List.forall_mem_cons.1 h
      rw [spellFrom, gap_of_not_isUpper hb, Byte.toLower_of_not_isUpper hb, ih ht, List.nil_append]

/-- But for hyphens only the case changes. -/
lemma filter_spellFrom (before : Option UInt8) (t : Text) :
    (spellFrom before t).filter (· ≠ Byte.hyphen)
      = (t.map Byte.toLower).filter (· ≠ Byte.hyphen) := by
  induction t generalizing before with
  | nil => rfl
  | cons b t ih =>
      have hgap : (gap before b t.head?).filter (· ≠ Byte.hyphen) = [] := by
        rw [gap]
        split_ifs <;> rfl
      rw [spellFrom, List.filter_append, hgap, List.nil_append, List.map_cons, List.filter_cons,
        List.filter_cons, ih]

/-- Every hyphen that is put stands in front of a letter. -/
lemma hyphens_spellFrom (h : Byte.hyphen ∉ t) (before : Option UInt8) :
    (spellFrom before t).getLast? ≠ some Byte.hyphen
      ∧ ¬ ([Byte.hyphen, Byte.hyphen] : Text) <:+: spellFrom before t := by
  induction t generalizing before with
  | nil => exact ⟨nofun, by simp [spellFrom]⟩
  | cons b t ih =>
      obtain ⟨hb, ht⟩ := not_or.1 (mt List.mem_cons.2 h)
      have hletter : Byte.toLower b ≠ Byte.hyphen := by
        rw [Ne, Byte.toLower_eq_hyphen_iff]
        exact Ne.symm hb
      obtain ⟨hlast, hdouble⟩ := ih ht (some b)
      rw [spellFrom]
      constructor
      · rw [List.getLast?_append_of_ne_nil _ (List.cons_ne_nil _ _), List.getLast?_cons]
        cases hrest : (spellFrom (some b) t).getLast? with
        | none => simpa using hletter
        | some c => simpa [hrest] using hlast
      · rw [Text.infix_append_cons_iff (by simpa using hletter), not_or]
        refine ⟨fun hgap => ?_, hdouble⟩
        have hlength := hgap.length_le
        rw [gap] at hlength
        split_ifs at hlength <;> simp at hlength

/-- No hyphen is put in front of the first byte. -/
lemma head?_spellFrom_none (h : Byte.hyphen ∉ t) : (spellFrom none t).head? ≠ some Byte.hyphen := by
  cases t with
  | nil => nofun
  | cons b t =>
      rw [spellFrom, gap_none, List.nil_append, List.head?_cons, Ne, Option.some_inj,
        Byte.toLower_eq_hyphen_iff]
      rintro rfl
      exact h List.mem_cons_self

/-- **The laws of the kebab-case form** of an ASCII name. A hyphen is put in front of each byte with
which a word starts, and each byte is in lower case: no capital is left, the form of the form is the
form, and without hyphens it is the name in lower case without hyphens. Of a name without hyphens it
begins and ends with none, and no two of them stand together. -/
theorem kebab_ascii (h : ∀ b ∈ name, b < 0x80) :
    kebab name = name.zipIdx.flatMap (spelledAt name)
    ∧ (∀ b ∈ kebab name, b < 0x80 ∧ Byte.isUpper b = false)
    ∧ kebab (kebab name) = kebab name
    ∧ (kebab name).filter (· ≠ Byte.hyphen) = (Text.toLower name).filter (· ≠ Byte.hyphen)
    ∧ (Byte.hyphen ∉ name →
      (kebab name).head? ≠ some Byte.hyphen ∧ (kebab name).getLast? ≠ some Byte.hyphen
        ∧ ¬ ([Byte.hyphen, Byte.hyphen] : Text) <:+: kebab name) := by
  have hform := kebab_eq_spellFrom h
  have hbytes : ∀ b ∈ kebab name, b < 0x80 ∧ Byte.isUpper b = false := by
    intro c hc
    rw [hform] at hc
    rcases exists_of_mem_spellFrom hc with rfl | ⟨b, hb, rfl⟩
    · decide
    · exact ⟨Byte.toLower_lt (h b hb), Byte.isUpper_toLower b⟩
  refine ⟨?_, hbytes, ?_, ?_, fun hname => ?_⟩
  · rw [hform]
    exact spellFrom_eq_flatMap [] name
  · rw [kebab_eq_spellFrom fun b hb => (hbytes b hb).1,
      spellFrom_eq_self fun b hb => (hbytes b hb).2]
  · rw [hform, toLower_eq_map h, filter_spellFrom]
  · rw [hform]
    exact ⟨head?_spellFrom_none hname, hyphens_spellFrom hname none⟩

/-- Capitals behind lower-case letters and behind a digit, and a run of them before a word. -/
theorem kebab_ascii_acronym :
    (∀ b ∈ ("showURLPrefixH5Mode" : Text), b < 0x80)
      ∧ kebab "showURLPrefixH5Mode" = "show-url-prefix-h5-mode"
      ∧ kebab "show-url-prefix-h5-mode" = "show-url-prefix-h5-mode"
      ∧ (Text.toLower "showURLPrefixH5Mode").filter (· ≠ Byte.hyphen) = "showurlprefixh5mode" := by
  have hascii : ∀ b ∈ ("showURLPrefixH5Mode" : Text), b < 0x80 := by decide
  obtain ⟨-, -, hagain, hcase, -⟩ := kebab_ascii hascii
  have hform : kebab "showURLPrefixH5Mode" = "show-url-prefix-h5-mode" := by decide +kernel
  rw [hform] at hagain hcase
  exact ⟨hascii, hform, hagain, hcase.symm.trans (by decide)⟩

end Casing

end MiniProgram
