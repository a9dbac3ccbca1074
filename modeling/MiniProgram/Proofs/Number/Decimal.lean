import MiniProgram.Number.Decimal
import MiniProgram.Proofs.Text.Numeral
import MiniProgram.Proofs.Text.Search

/-!
Decimal texts: which bytes the text of a number holds, and that decimal numerals are read.

* `isTextByte_of_mem_shortest`: **the bytes of the text of a number.**
* `IsNumeral`: digits, with a dot before the last of them or without one.
* `IsNumeral.read?_ne_malformed`: **a numeral stands for a number**, unless that is out of range.
-/

namespace MiniProgram

namespace Binary64

variable {b : UInt8} {t : Text}

/-! ### The text of a number -/

/-- A byte of the text of a number: a digit, a sign, a dot, or a letter of one of the words for
infinities and for no number. -/
def isTextByte (b : UInt8) : Bool := Byte.isDigit b || ("+-.InfNa" : Text).elem b

lemma isTextByte_of_isDigit (h : Byte.isDigit b = true) : isTextByte b = true := by
  rw [isTextByte, h, Bool.true_or]

lemma isTextByte_of_mem_positional {digits : ℕ} {e : ℤ} (h : b ∈ positional digits e) :
    isTextByte b = true := by
  have hdigit : ∀ {k}, b ∈ List.replicate k Byte.zero ++ Text.ofNat digits →
      Byte.isDigit b = true := by
    intro k hb
    rcases List.mem_append.1 hb with hb | hb
    · rw [List.eq_of_mem_replicate hb]
      rfl
    · exact Text.isDigit_of_mem_ofNat hb
  rw [positional] at h
  split at h
  · refine isTextByte_of_isDigit ?_
    rcases List.mem_append.1 h with hb | hb
    · exact Text.isDigit_of_mem_ofNat hb
    · rw [List.eq_of_mem_replicate hb]
      rfl
  · dsimp only at h
    split at h
    · exact isTextByte_of_isDigit (hdigit (List.mem_of_mem_take h))
    · simp only [List.mem_append, List.mem_reverse] at h
      rcases h with (hb | hb) | hb
      · exact isTextByte_of_isDigit (hdigit (List.mem_of_mem_take hb))
      · exact (by decide : ∀ b ∈ ("." : Text), isTextByte b = true) b hb
      · have hb := List.mem_reverse.1 ((List.dropWhile_sublist _).subset hb)
        exact isTextByte_of_isDigit (hdigit (List.mem_of_mem_drop hb))

/-- **The bytes of the text of a number.** -/
lemma isTextByte_of_mem_shortest {x : Binary64} (h : b ∈ x.shortest) : isTextByte b = true := by
  have hsigned : ∀ {s : Bool} {t : Text}, (∀ b ∈ t, isTextByte b = true) → b ∈ signed s t →
      isTextByte b = true := by
    intro s t ht hb
    rw [signed] at hb
    split at hb
    · rcases List.mem_cons.1 hb with rfl | hb
      · rfl
      · exact ht b hb
    · exact ht b hb
  cases x with
  | nan => exact (by decide : ∀ b ∈ shortest nan, isTextByte b = true) b h
  | infinity s =>
      exact (by decide : ∀ s, ∀ b ∈ shortest (infinity s), isTextByte b = true) s b h
  | finite s m e =>
      rw [shortest] at h
      split at h
      · exact hsigned (by decide) h
      · exact hsigned (fun _ => isTextByte_of_mem_positional) h

/-! ### Numerals -/

/-- A decimal numeral: digits, with a dot before the last of them or without one. -/
def IsNumeral (t : Text) : Prop :=
  ∃ whole point part, t = whole ++ (point ++ part) ∧ (∀ b ∈ whole, Byte.isDigit b = true)
    ∧ (point = [] ∨ point = [Byte.dot]) ∧ part ≠ [] ∧ ∀ b ∈ part, Byte.isDigit b = true

/-- A byte of a numeral. -/
def isNumeralByte (b : UInt8) : Bool := Byte.isDigit b || b == Byte.dot

namespace IsNumeral

lemma isNumeralByte (h : IsNumeral t) (hb : b ∈ t) : isNumeralByte b = true := by
  obtain ⟨whole, point, part, rfl, hwhole, hpoint, -, hpart⟩ := h
  simp only [List.mem_append] at hb
  rcases hb with hb | hb | hb
  · simp [Binary64.isNumeralByte, hwhole b hb]
  · rcases hpoint with rfl | rfl
    · cases hb
    · rw [List.mem_singleton.1 hb]
      rfl
  · simp [Binary64.isNumeralByte, hpart b hb]

lemma ne_nil (h : IsNumeral t) : t ≠ [] := by
  obtain ⟨whole, point, part, rfl, -, -, hne, -⟩ := h
  simp [hne]

/-- Between digits and dots no underscore has to be looked at. -/
lemma separatesDigits {last : Option Bool} (hlast : last ≠ some false)
    (h : ∀ b ∈ t, Binary64.isNumeralByte b = true) :
    separatesDigits Byte.isDigit last t = true := by
  induction t generalizing last with
  | nil => simpa [Binary64.separatesDigits] using hlast
  | cons b t ih =>
      obtain ⟨hb, ht⟩ := List.forall_mem_cons.1 h
      rw [Binary64.separatesDigits]
      split_ifs with hdigit hunderscore
      · exact ih (by simp) ht
      · subst hunderscore
        cases hb
      · simp [hlast, ih _ ht]

/-- A numeral has a mantissa and an exponent. -/
lemma numeral?_isSome (h : IsNumeral t) : (numeral? 10 Byte.isDigit 101 t).isSome := by
  obtain ⟨whole, point, part, rfl, hwhole, hpoint, hne, hpart⟩ := h
  have hrun : ∀ {u : Text}, (∀ b ∈ u, Byte.isDigit b = true) →
      ∀ b ∈ u, (Byte.isDigit b || b == Byte.underscore) = true := fun hu b hb => by
    rw [hu b hb, Bool.true_or]
  have hspan : ∀ {u : Text}, (∀ b ∈ u, Byte.isDigit b = true) →
      spanDigits Byte.isDigit u = (u, []) := by
    intro u hu
    rw [spanDigits, List.takeWhile_eq_self_iff.2 (hrun hu), List.dropWhile_eq_nil_iff.2 (hrun hu)]
  -- the mantissa has a digit, since the last part is a run of them
  have hcount : 0 < digitCount part := by
    rw [digitCount, List.length_pos_iff, Ne, List.filter_eq_nil_iff]
    obtain ⟨b, part, rfl⟩ := List.exists_cons_of_ne_nil hne
    intro hnone
    have hb := hpart b List.mem_cons_self
    refine hnone b List.mem_cons_self (decide_eq_true ?_)
    rintro rfl
    cases hb
  -- without a point, whole and part are one run
  rcases hpoint with rfl | rfl
  · have hall : ∀ b ∈ whole ++ ([] ++ part), Byte.isDigit b = true := by
      simpa [or_imp, forall_and] using ⟨hwhole, hpart⟩
    have hpos : digitCount (whole ++ ([] ++ part)) + digitCount [] ≠ 0 := by
      simp only [digitCount, List.nil_append, List.filter_append, List.length_append]
      rw [digitCount] at hcount
      omega
    rw [numeral?, hspan hall]
    dsimp only
    rw [if_neg hpos]
    rfl
  · have hfirst : spanDigits Byte.isDigit (whole ++ ([Byte.dot] ++ part))
        = (whole, Byte.dot :: part) := by
      rw [spanDigits, List.singleton_append, Text.takeWhile_append_cons (hrun hwhole) (by rfl),
        Text.dropWhile_append_cons (hrun hwhole) (by rfl)]
    have hpos : digitCount whole + digitCount part ≠ 0 := by omega
    rw [numeral?, hfirst]
    split
    rename_i run rest heq
    cases heq
    split
    rename_i run rest heq
    cases (hspan hpart).symm.trans heq
    rw [if_neg hpos]
    rfl

/-- A numeral is of no case. -/
lemma toLower_of_mem (h : IsNumeral t) (hb : b ∈ t) : Byte.toLower b = b := by
  have hbyte := h.isNumeralByte hb
  have hupper : Byte.isUpper b = false := by
    rw [Binary64.isNumeralByte, Byte.isDigit] at hbyte
    rw [Byte.isUpper]
    grind
  rw [Byte.toLower, hupper, if_neg (by simp)]

/-- A numeral is read as a decimal one, whose magnitude is found. -/
lemma magnitude?_isSome (h : IsNumeral t) : (magnitude? false t).isSome := by
  have hdecimal : (magnitude?.decimal? false t).isSome := by
    rw [magnitude?.decimal?, if_pos (separatesDigits (by simp) fun b => h.isNumeralByte),
      Option.isSome_map]
    exact h.numeral?_isSome
  rw [magnitude?.eq_def]
  split
  · rename_i x rest
    have hx : x ∈ Byte.zero :: x :: rest := by simp
    rw [h.toLower_of_mem hx, if_neg (Byte.ne_of_class (h.isNumeralByte hx) rfl)]
    exact hdecimal
  · exact hdecimal

/-- **A numeral stands for a number**, unless that is out of range. -/
lemma read?_ne_malformed (h : IsNumeral t) : read? t ≠ .error .malformed := by
  have hmagnitude := h.magnitude?_isSome
  have hlower : t.map Byte.toLower = t :=
    (List.map_congr_left fun b => h.toLower_of_mem).trans (List.map_id t)
  obtain ⟨b, t, rfl⟩ := List.exists_cons_of_ne_nil h.ne_nil
  -- a digit or a dot is neither a sign nor the first letter of a word
  have hne : ∀ c, Binary64.isNumeralByte c = false → b ≠ c := fun c hc =>
    Byte.ne_of_class (h.isNumeralByte List.mem_cons_self) hc
  have hword : ∀ c (w : Text), Binary64.isNumeralByte c = false → b :: t ≠ c :: w :=
    fun c w hc heq => hne c hc (List.cons.inj heq).1
  rw [read?]
  · have hinf : b :: t ≠ ("inf" : Text) := hword 105 _ rfl
    have hinfinity : b :: t ≠ ("infinity" : Text) := hword 105 _ rfl
    have hnan : b :: t ≠ ("nan" : Text) := hword 110 _ rfl
    rw [hlower, if_neg (by simp [hinf, hinfinity]), if_neg hnan]
    cases hread : magnitude? false (b :: t) with
    | none => rw [hread] at hmagnitude; cases hmagnitude
    | some x => cases x <;> simp
  · rintro r ⟨⟩
    exact hne _ rfl rfl
  · rintro r ⟨⟩
    exact hne _ rfl rfl

end IsNumeral

end Binary64

end MiniProgram
