import MiniProgram.Proofs.Text.Rune
import MiniProgram.Proofs.Text.Search
import MiniProgram.Text.Quoted

/-!
How a text is written between double quotes.

A text is spelled on one line by bytes that stand for themselves and by escapes, a backslash and the
byte after it. A quote in the spelling is one of the text, and a text that is not spelled as it is
holds fewer backslashes than its spelling.

* `spelled`, `quote_eq`: a quoted text is its spelling between double quotes.
* `mem_runeSpans`: a code point is read from one ASCII byte, or from bytes beyond ASCII.
* `flatMap_snd_runeSpans`: a text is the bytes of its code points.
* `quoteSpan_of_isPlainSpan`, `quoteSpan_of_not_isPlainSpan`: what one code point is written by.
* `spelling_spelled`, `mem_of_mem_spelled`: the spelling of a text, and its quotes.
* `spelled_eq_self_iff`: the texts that are spelled as they are.
-/

namespace MiniProgram

namespace Text

/-- What stands between the quotes of a quoted text. -/
def spelled (t : Text) : Text := (runeSpans t).flatMap quoteSpan

lemma quote_eq (t : Text) : quote t = Byte.doubleQuote :: (spelled t ++ [Byte.doubleQuote]) := rfl

/-! ### Spellings -/

/-- A byte that neither ends a literal nor a line. -/
def isInner (b : UInt8) : Bool := !(Byte.isQuote b || b == Byte.newline)

lemma isInner_iff {b : UInt8} : isInner b = true ↔ Byte.isQuote b = false ∧ b ≠ Byte.newline := by
  simp [isInner]

/-- A byte that stands for itself between double quotes. -/
def isBare (b : UInt8) : Bool :=
  !(b == Byte.newline || b == Byte.doubleQuote || b == Byte.backslash)

lemma isBare_iff {b : UInt8} :
    isBare b = true ↔ b ≠ Byte.newline ∧ b ≠ Byte.doubleQuote ∧ b ≠ Byte.backslash := by
  simp [isBare, and_assoc]

/-- A text of one line made of bytes that stand for themselves and of escapes. -/
inductive Spelling : Text → Prop
  | nil : Spelling []
  | byte {b : UInt8} {t : Text} (hbare : isBare b = true) (rest : Spelling t) : Spelling (b :: t)
  | escape {b : UInt8} {t : Text} (hline : b ≠ Byte.newline) (rest : Spelling t) :
      Spelling (Byte.backslash :: b :: t)

namespace Spelling

variable {t u : Text}

lemma append (ht : Spelling t) (hu : Spelling u) : Spelling (t ++ u) := by
  induction ht with
  | nil => exact hu
  | byte hbare rest ih => exact .byte hbare ih
  | escape hline rest ih => exact .escape hline ih

lemma of_forall (h : ∀ b ∈ t, isBare b = true) : Spelling t := by
  induction t with
  | nil => exact .nil
  | cons b t ih =>
      exact .byte (h b List.mem_cons_self) (ih fun c hc => h c (List.mem_cons_of_mem b hc))

lemma flatMap {α : Type} {xs : List α} {f : α → Text} (h : ∀ x ∈ xs, Spelling (f x)) :
    Spelling (xs.flatMap f) := by
  induction xs with
  | nil => exact .nil
  | cons x xs ih =>
      rw [List.flatMap_cons]
      exact (h x List.mem_cons_self).append (ih fun y hy => h y (List.mem_cons_of_mem x hy))

/-- A spelling does not end its line. -/
lemma newline_notMem (h : Spelling t) : Byte.newline ∉ t := by
  induction h with
  | nil => exact List.not_mem_nil
  | byte hbare rest ih => exact List.not_mem_cons_of_ne_of_not_mem (isBare_iff.1 hbare).1.symm ih
  | escape hline rest ih =>
      exact List.not_mem_cons_of_ne_of_not_mem (by decide)
        (List.not_mem_cons_of_ne_of_not_mem hline.symm ih)

end Spelling

/-! ### Code points -/

@[simp] lemma runeSpansFrom_nil (skip : Nat) : runeSpansFrom skip [] = [] := by
  rw [runeSpansFrom]

/-- A byte that belongs to the code point before it is passed over. -/
@[simp] lemma runeSpansFrom_succ_cons (skip : Nat) (b : UInt8) (t : Text) :
    runeSpansFrom (skip + 1) (b :: t) = runeSpansFrom skip t := by
  rw [runeSpansFrom]

lemma runeSpansFrom_cons_of_none {b : UInt8} {t : Text} (h : Rune.read? b t = none) :
    runeSpansFrom 0 (b :: t) = (none, [b]) :: runeSpansFrom 0 t := by
  rw [runeSpansFrom, h]

lemma runeSpansFrom_cons_of_some {b : UInt8} {t : Text} {c more : Nat}
    (h : Rune.read? b t = some (c, more)) :
    runeSpansFrom 0 (b :: t) = (some c, b :: t.take more) :: runeSpansFrom more t := by
  rw [runeSpansFrom, h]

lemma runeSpansFrom_eq_drop (skip : Nat) (t : Text) :
    runeSpansFrom skip t = runeSpans (t.drop skip) := by
  induction t generalizing skip with
  | nil => rw [runeSpansFrom_nil, List.drop_nil, runeSpans, runeSpansFrom_nil]
  | cons b t ih =>
      cases skip with
      | zero => rfl
      | succ skip => rw [runeSpansFrom_succ_cons, ih, List.drop_succ_cons]

/-- Each code point of a text is read at one of its bytes. -/
lemma exists_of_mem_runeSpansFrom {skip : Nat} {t bytes : Text} {c : Option Nat}
    (h : (c, bytes) ∈ runeSpansFrom skip t) :
    ∃ b ∈ t, (c = none ∧ bytes = [b] ∧ 0x80 ≤ b)
      ∨ ∃ rest code more, Rune.read? b rest = some (code, more) ∧ c = some code
        ∧ bytes = b :: rest.take more := by
  induction t generalizing skip with
  | nil => rw [runeSpansFrom_nil] at h; cases h
  | cons b t ih =>
      have hrest : ∀ skip, (c, bytes) ∈ runeSpansFrom skip t → _ := fun skip h =>
        (ih h).imp fun d hd => And.imp_left (List.mem_cons_of_mem b) hd
      cases skip with
      | succ skip => exact hrest skip (by rwa [runeSpansFrom_succ_cons] at h)
      | zero =>
          cases hread : Rune.read? b t with
          | none =>
              rw [runeSpansFrom_cons_of_none hread, List.mem_cons, Prod.mk.injEq] at h
              rcases h with ⟨hc, hbytes⟩ | h
              · exact ⟨b, List.mem_cons_self, Or.inl ⟨hc, hbytes, Rune.le_of_read?_eq_none hread⟩⟩
              · exact hrest 0 h
          | some found =>
              obtain ⟨code, more⟩ := found
              rw [runeSpansFrom_cons_of_some hread, List.mem_cons, Prod.mk.injEq] at h
              rcases h with ⟨hc, hbytes⟩ | h
              · exact ⟨b, List.mem_cons_self, Or.inr ⟨t, code, more, hread, hc, hbytes⟩⟩
              · exact hrest more h

/-- A code point of a text is read from one ASCII byte, which is its number, or from bytes beyond
ASCII. -/
lemma mem_runeSpans {t bytes : Text} {c : Nat} (h : (some c, bytes) ∈ runeSpans t) :
    (∃ b ∈ t, bytes = [b] ∧ b.toNat = c) ∨ (bytes ≠ [] ∧ ∀ b ∈ bytes, 0x80 ≤ b) := by
  obtain ⟨b, hb, ⟨hc, -⟩ | ⟨rest, code, more, hread, hc, rfl⟩⟩ := exists_of_mem_runeSpansFrom h
  · cases hc
  · cases hc
    rcases Rune.bytes_of_read? hread with ⟨rfl, hcode⟩ | ⟨-, hhigh⟩
    · exact Or.inl ⟨b, hb, by simp, hcode⟩
    · exact Or.inr ⟨by simp, hhigh⟩

lemma flatMap_snd_runeSpansFrom (skip : Nat) (t : Text) :
    (runeSpansFrom skip t).flatMap Prod.snd = t.drop skip := by
  induction t generalizing skip with
  | nil => simp
  | cons b t ih =>
      cases skip with
      | succ skip => rw [runeSpansFrom_succ_cons, ih, List.drop_succ_cons]
      | zero =>
          cases hread : Rune.read? b t with
          | none => simp [runeSpansFrom_cons_of_none hread, ih]
          | some found => simp [runeSpansFrom_cons_of_some hread, ih]

/-- A text is the bytes of its code points. -/
lemma flatMap_snd_runeSpans (t : Text) : (runeSpans t).flatMap Prod.snd = t :=
  flatMap_snd_runeSpansFrom 0 t

/-- An ASCII byte of a text is a code point of the text. -/
lemma mem_runeSpans_of_mem {t : Text} {b : UInt8} (hb : b ∈ t) (hascii : b < 0x80) :
    (some b.toNat, [b]) ∈ runeSpans t := by
  have hlow : ∀ {d : UInt8}, 0x80 ≤ d → b ≠ d := fun hd hbd => UInt8.not_le.2 hascii (hbd ▸ hd)
  rw [← flatMap_snd_runeSpans t, List.mem_flatMap] at hb
  obtain ⟨⟨c, bytes⟩, hspan, hb⟩ := hb
  cases c with
  | none =>
      obtain ⟨d, -, ⟨-, rfl, hd⟩ | ⟨_, _, _, -, hc, -⟩⟩ := exists_of_mem_runeSpansFrom hspan
      · exact absurd (List.mem_singleton.1 hb) (hlow hd)
      · cases hc
  | some c =>
      rcases mem_runeSpans hspan with ⟨d, -, rfl, rfl⟩ | ⟨-, hhigh⟩
      · rwa [List.mem_singleton.1 hb]
      · exact absurd rfl (hlow (hhigh b hb))

/-! ### The spelling of a text -/

lemma exists_of_mem_hexDigits {width n : Nat} {b : UInt8} (h : b ∈ hexDigits width n) :
    ∃ d < 16, b = Byte.ofDigit d := by
  induction width generalizing n with
  | zero => cases h
  | succ width ih =>
      rcases List.mem_append.1 h with h | h
      · exact ih h
      · exact ⟨_, Nat.mod_lt n (by decide), List.mem_singleton.1 h⟩

lemma isBare_of_mem_hexDigits {width n : Nat} {b : UInt8} (h : b ∈ hexDigits width n) :
    isBare b = true ∧ Byte.isQuote b = false := by
  have hdigit : ∀ d < 16, isBare (Byte.ofDigit d) = true
      ∧ Byte.isQuote (Byte.ofDigit d) = false := by decide
  obtain ⟨d, hd, rfl⟩ := exists_of_mem_hexDigits h
  exact hdigit d hd

lemma isBare_of_le {b : UInt8} (h : 0x80 ≤ b) : isBare b = true ∧ Byte.isQuote b = false := by
  have hne : ∀ c : UInt8, c < 0x80 → b ≠ c := fun c hc hbc => absurd (hbc ▸ h) (UInt8.not_le.2 hc)
  refine ⟨isBare_iff.2 ⟨hne _ (by decide), hne _ (by decide), hne _ (by decide)⟩, ?_⟩
  simp [Byte.isQuote, hne Byte.singleQuote (by decide), hne Byte.doubleQuote (by decide)]

/-- A code point that is written by its bytes. -/
def isPlainSpan : Option Nat × Text → Bool
  | (none, _) => false
  | (some c, _) => Rune.isPrintable c && c ≠ 34 && c ≠ 92

lemma quoteSpan_of_isPlainSpan {span : Option Nat × Text} (h : isPlainSpan span = true) :
    quoteSpan span = span.2 := by
  obtain ⟨c, bytes⟩ := span
  cases c with
  | none => cases h
  | some c =>
      simp only [isPlainSpan, Bool.and_eq_true, decide_eq_true_eq] at h
      rw [quoteSpan, if_neg (by simp [h.1.2, h.2]), if_pos h.1.1]

/-- A code point that is not written by its bytes is written by an escape: its bytes after a
backslash, or a backslash, a letter and digits. -/
lemma quoteSpan_of_not_isPlainSpan {c : Nat} {bytes : Text}
    (h : isPlainSpan (some c, bytes) = false) :
    ((c = 34 ∨ c = 92) ∧ quoteSpan (some c, bytes) = Byte.backslash :: bytes)
      ∨ (c ≠ 92 ∧ ∃ b width, isInner b = true
        ∧ quoteSpan (some c, bytes) = Byte.backslash :: b :: hexDigits width c) := by
  rw [quoteSpan]
  simp only [isPlainSpan] at h
  generalize Rune.isPrintable c = printable at h ⊢
  by_cases hmark : (decide (c = 34) || decide (c = 92)) = true
  · rw [if_pos hmark]
    exact Or.inl ⟨by simpa using hmark, rfl⟩
  have hne : c ≠ 34 ∧ c ≠ 92 := by simpa using hmark
  rw [if_neg hmark, if_neg (by simpa [hne.1, hne.2] using h)]
  refine Or.inr ⟨hne.2, ?_⟩
  -- the seven control characters with a letter of their own, then the hexadecimal escapes
  have hletter : ∀ (code : Nat) (letter : UInt8) {rest : Text}, isInner letter = true →
      (∃ b width, isInner b = true ∧ rest = Byte.backslash :: b :: hexDigits width c) →
      ∃ b width, isInner b = true
        ∧ (if c = code then [Byte.backslash, letter] else rest)
          = Byte.backslash :: b :: hexDigits width c := by
    intro code letter rest hinner hrest
    by_cases hc : c = code
    · exact ⟨letter, 0, hinner, if_pos hc⟩
    · rwa [if_neg hc]
  refine hletter 7 _ (by rfl) (hletter 8 _ (by rfl) (hletter 12 _ (by rfl)
    (hletter 10 _ (by rfl) (hletter 13 _ (by rfl) (hletter 9 _ (by rfl)
    (hletter 11 _ (by rfl) ?_))))))
  by_cases hshort : (decide (c < 32) || decide (c = 127)) = true
  · exact ⟨_, 2, by rfl, if_pos hshort⟩
  rw [if_neg hshort]
  by_cases hplane : c < 0x10000
  · exact ⟨_, 4, by rfl, if_pos hplane⟩
  · exact ⟨_, 8, by rfl, if_neg hplane⟩

/-- A code point is written by bytes for themselves or by an escape. -/
lemma spelling_quoteSpan {t : Text} {span : Option Nat × Text} (h : span ∈ runeSpans t) :
    Spelling (quoteSpan span) := by
  have hhex : ∀ width n, Spelling (hexDigits width n) := fun _ _ =>
    .of_forall fun _ hb => (isBare_of_mem_hexDigits hb).1
  have hhigh : ∀ {u : Text}, (∀ b ∈ u, 0x80 ≤ b) → Spelling u := fun hu =>
    .of_forall fun b hb => (isBare_of_le (hu b hb)).1
  obtain ⟨c, bytes⟩ := span
  cases c with
  | none => exact .flatMap fun b _ => .escape (by decide) (hhex 2 b.toNat)
  | some c =>
      by_cases hplain : isPlainSpan (some c, bytes) = true
      · rw [quoteSpan_of_isPlainSpan hplain]
        simp only [isPlainSpan, Bool.and_eq_true, decide_eq_true_eq] at hplain
        rcases mem_runeSpans h with ⟨b, -, rfl, rfl⟩ | ⟨-, hbytes⟩
        · refine .byte (isBare_iff.2 ⟨?_, ?_, ?_⟩) .nil
          · rintro rfl
            exact absurd hplain.1.1 (by decide)
          · rintro rfl
            exact hplain.1.2 rfl
          · rintro rfl
            exact hplain.2 rfl
        · exact hhigh hbytes
      · -- a backslash is put before the code point, or it is written by its number
        rcases quoteSpan_of_not_isPlainSpan (Bool.not_eq_true _ ▸ hplain) with
          ⟨hmark, hspan⟩ | ⟨-, b, width, hinner, hspan⟩
        · rw [hspan]
          rcases mem_runeSpans h with ⟨b, -, rfl, rfl⟩ | ⟨hne, hbytes⟩
          · refine .escape ?_ .nil
            rintro rfl
            exact absurd hmark (by decide)
          · obtain ⟨b, bytes, rfl⟩ := List.exists_cons_of_ne_nil hne
            obtain ⟨hb, hbytes⟩ := List.forall_mem_cons.1 hbytes
            exact .escape (isBare_iff.1 (isBare_of_le hb).1).1 (hhigh hbytes)
        · rw [hspan]
          exact .escape (isInner_iff.1 hinner).2 (hhex width c)

/-- **Spelling.** A text is spelled by bytes for themselves and by escapes. -/
lemma spelling_spelled (t : Text) : Spelling (spelled t) :=
  .flatMap fun _ h => spelling_quoteSpan h

/-- A quote in the spelling of a text is a quote of the text. -/
lemma mem_of_mem_spelled {t : Text} {b : UInt8} (hquote : Byte.isQuote b = true)
    (h : b ∈ spelled t) : b ∈ t := by
  rw [spelled, List.mem_flatMap] at h
  obtain ⟨⟨c, bytes⟩, hspan, hb⟩ := h
  have hback : b ≠ Byte.backslash := Byte.ne_of_class hquote rfl
  have hhex : ∀ {width n : Nat}, b ∉ hexDigits width n := fun hmem =>
    absurd rfl (Byte.ne_of_class hquote (isBare_of_mem_hexDigits hmem).2)
  have hbytes : b ∈ bytes → b ∈ t := by
    intro hb
    rw [← flatMap_snd_runeSpans t, List.mem_flatMap]
    exact ⟨_, hspan, hb⟩
  cases c with
  | none =>
      obtain ⟨d, -, hb⟩ := List.mem_flatMap.1 hb
      rcases List.mem_append.1 hb with hb | hb
      · exact absurd hquote
          ((by decide : ∀ b ∈ ("\\x" : Text), ¬ Byte.isQuote b = true) b hb)
      · exact absurd hb hhex
  | some c =>
      by_cases hplain : isPlainSpan (some c, bytes) = true
      · rw [quoteSpan_of_isPlainSpan hplain] at hb
        exact hbytes hb
      · rcases quoteSpan_of_not_isPlainSpan (Bool.not_eq_true _ ▸ hplain) with
          ⟨-, hspelled⟩ | ⟨-, d, width, hinner, hspelled⟩
        · rw [hspelled] at hb
          exact hbytes ((List.mem_cons.1 hb).resolve_left hback)
        · rw [hspelled] at hb
          have hd : b ≠ d := Byte.ne_of_class hquote (isInner_iff.1 hinner).1
          exact absurd ((List.mem_cons.1 ((List.mem_cons.1 hb).resolve_left hback)).resolve_left hd)
            hhex

/-- Only the empty text is spelled by nothing. -/
lemma spelled_ne_nil {t : Text} (ht : t ≠ []) : spelled t ≠ [] := by
  have hspan : ∀ c b bytes, quoteSpan (c, b :: bytes) ≠ [] := by
    intro c b bytes
    cases c with
    | none => exact List.cons_ne_nil _ _
    | some c =>
        by_cases hplain : isPlainSpan (some c, b :: bytes) = true
        · rw [quoteSpan_of_isPlainSpan hplain]
          exact List.cons_ne_nil _ _
        · rcases quoteSpan_of_not_isPlainSpan (Bool.not_eq_true _ ▸ hplain) with
            ⟨-, h⟩ | ⟨-, _, _, -, h⟩
          all_goals rw [h]; exact List.cons_ne_nil _ _
  obtain ⟨b, t, rfl⟩ := List.exists_cons_of_ne_nil ht
  rw [spelled, runeSpans, runeSpansFrom]
  cases Rune.read? b t with
  | none => simp [hspan]
  | some found => simp [hspan]

/-! ### Texts that are spelled as they are -/

/-- A code point that is not written by its bytes brings a backslash more. -/
lemma count_lt_quoteSpan {t : Text} {span : Option Nat × Text} (h : span ∈ runeSpans t)
    (hplain : isPlainSpan span = false) :
    span.2.count Byte.backslash < (quoteSpan span).count Byte.backslash := by
  obtain ⟨c, bytes⟩ := span
  have hzero : (∀ b ∈ bytes, 0x80 ≤ b) → bytes.count Byte.backslash = 0 := fun hbytes =>
    List.count_eq_zero.2 fun hmem => absurd (hbytes _ hmem) (by decide)
  cases c with
  | none =>
      obtain ⟨b, -, ⟨-, rfl, hb⟩ | ⟨_, _, _, -, hc, -⟩⟩ := exists_of_mem_runeSpansFrom h
      · rw [hzero (by simpa using hb)]
        exact List.count_pos_iff.2 (List.mem_cons_self)
      · cases hc
  | some c =>
      rcases quoteSpan_of_not_isPlainSpan hplain with ⟨-, hspan⟩ | ⟨hne, b, width, -, hspan⟩
      · rw [hspan, List.count_cons_self]
        exact Nat.lt_succ_self _
      · have hnone : bytes.count Byte.backslash = 0 := by
          rcases mem_runeSpans h with ⟨b, -, rfl, rfl⟩ | ⟨-, hbytes⟩
          · refine List.count_eq_zero.2 fun hmem => hne ?_
            rw [← List.mem_singleton.1 hmem]
            rfl
          · exact hzero hbytes
        rw [hspan, hnone]
        exact List.count_pos_iff.2 List.mem_cons_self

/-- A text of which not every code point is written by its bytes has fewer backslashes than its
spelling. -/
lemma count_lt_spelled {t : Text} (h : ∃ span ∈ runeSpans t, isPlainSpan span = false) :
    t.count Byte.backslash < (spelled t).count Byte.backslash := by
  have hle : ∀ span ∈ runeSpans t,
      span.2.count Byte.backslash ≤ (quoteSpan span).count Byte.backslash := by
    intro span hspan
    by_cases hplain : isPlainSpan span = true
    · rw [quoteSpan_of_isPlainSpan hplain]
    · exact (count_lt_quoteSpan hspan (Bool.not_eq_true _ ▸ hplain)).le
  obtain ⟨span, hspan, hplain⟩ := h
  conv_lhs => rw [← flatMap_snd_runeSpans t]
  rw [spelled, List.count_flatMap, List.count_flatMap]
  exact List.sum_lt_sum _ _ hle ⟨span, hspan, count_lt_quoteSpan hspan hplain⟩

/-- The texts that are spelled as they are. -/
lemma spelled_eq_self_iff {t : Text} :
    spelled t = t ↔ ∀ span ∈ runeSpans t, isPlainSpan span = true := by
  constructor
  · intro h span hspan
    by_contra hplain
    have hlt := count_lt_spelled ⟨span, hspan, Bool.not_eq_true _ ▸ hplain⟩
    rw [h] at hlt
    exact lt_irrefl _ hlt
  · intro h
    conv_rhs => rw [← flatMap_snd_runeSpans t]
    exact List.flatMap_congr fun span hspan => quoteSpan_of_isPlainSpan (h span hspan)

end Text

end MiniProgram
