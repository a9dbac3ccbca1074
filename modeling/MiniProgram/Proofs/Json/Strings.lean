import MiniProgram.Json.Reader
import MiniProgram.Proofs.Text.Utf8

/-!
JSON strings read back.

A string is written code point by code point: as it is, or as an escape of two or six bytes. Reading
looks for the closing quote first and then resolves the escapes of what stands before it.

* `isBody_escape`: no code point is written with a quote that closes the string.
* `unescapeFrom?_escape`: what is written for a code point stands for that code point.
* `readString?_body`: **a string reads back as the text that was written**, with U+FFFD in the
  place of every byte that is no well-formed UTF-8.
-/

namespace MiniProgram

namespace Json

open Rune (isScalar encode)

variable {b : UInt8} {c : ℕ} {t piece piece' : Text}

/-! ### The end of a string -/

/-- Bytes in the body of a string, whole escapes among them, after which it goes on. -/
def IsBody (piece : Text) : Prop :=
  ∀ t, stringExtent? false (piece ++ t)
    = (stringExtent? false t).map fun found => (piece ++ found.1, found.2)

lemma isBody_nil : IsBody [] := fun t => by simp

lemma IsBody.append (h : IsBody piece) (h' : IsBody piece') : IsBody (piece ++ piece') := by
  intro t
  rw [List.append_assoc, h, h', Option.map_map]
  exact congrArg (Option.map · _) (funext fun found => by simp)

/-- A byte that stands for itself. -/
def IsPlainByte (b : UInt8) : Prop := b ≠ Byte.doubleQuote ∧ b ≠ Byte.backslash ∧ 32 ≤ b

instance decidableIsPlainByte : DecidablePred IsPlainByte := fun b =>
  inferInstanceAs (Decidable (b ≠ Byte.doubleQuote ∧ b ≠ Byte.backslash ∧ 32 ≤ b))

lemma isBody_plain (hb : IsPlainByte b) : IsBody [b] := by
  obtain ⟨hquote, hslash, hlow⟩ := hb
  intro t
  rw [List.singleton_append, stringExtent?, if_neg hquote, if_neg (UInt8.not_lt.2 hlow),
    beq_eq_false_iff_ne.2 hslash]
  rfl

lemma isBody_of_forall (h : ∀ b ∈ piece, IsPlainByte b) : IsBody piece := by
  induction piece with
  | nil => exact isBody_nil
  | cons b piece ih =>
      obtain ⟨hb, hpiece⟩ := List.forall_mem_cons.1 h
      exact (isBody_plain hb).append (ih hpiece)

/-- A backslash takes the next byte along. -/
lemma isBody_pair (hb : 32 ≤ b) : IsBody [Byte.backslash, b] := by
  intro t
  rw [List.cons_append, List.singleton_append, stringExtent?, if_neg (by decide),
    if_neg (by decide), beq_self_eq_true, stringExtent?, if_neg (UInt8.not_lt.2 hb),
    Option.map_map]
  rfl

lemma isPlainByte_of_le (h : 0x80 ≤ b) : IsPlainByte b := by
  refine ⟨?_, ?_, UInt8.le_trans (by decide) h⟩ <;> rintro rfl <;> exact absurd h (by decide)

lemma isPlainByte_of_mem_hexDigits {width n : ℕ} (h : b ∈ Text.hexDigits width n) :
    IsPlainByte b := by
  have hdigit : ∀ d < 16, IsPlainByte (Byte.ofDigit d) := by decide
  obtain ⟨d, hd, rfl⟩ := Text.exists_of_mem_hexDigits h
  exact hdigit d hd

/-- A code point that is written as it is. -/
lemma isPlainByte_of_mem_encode (hquote : c ≠ 34) (hslash : c ≠ 92) (hlow : 32 ≤ c)
    (hb : b ∈ encode c) : IsPlainByte b := by
  by_cases hc : c < 0x80
  · have hascii : ∀ c < 0x80, IsPlainByte c.toUInt8 ∨ c = 34 ∨ c = 92 ∨ c < 32 := by decide
    rw [Rune.encode_of_lt hc, List.mem_singleton] at hb
    rw [hb]
    exact (hascii c hc).resolve_right (by omega)
  · exact isPlainByte_of_le (Rune.le_of_mem_encode (Nat.le_of_not_lt hc) hb)

/-- No code point is written with a quote that closes the string. -/
lemma isBody_escape (c : ℕ) : IsBody (escape c) := by
  rw [escape]
  split_ifs with h1 h2 h3 h4 h5 h6 h7
  · have hcode : c = 34 ∨ c = 92 := by simpa using h1
    refine isBody_pair ?_
    rcases hcode with rfl | rfl <;> decide
  · exact isBody_pair (by decide)
  · exact isBody_pair (by decide)
  · exact isBody_pair (by decide)
  · exact isBody_pair (by decide)
  · exact isBody_pair (by decide)
  · exact (isBody_pair (by decide : 32 ≤ (117 : UInt8))).append
      (isBody_of_forall fun b hb => isPlainByte_of_mem_hexDigits hb)
  · simp only [Bool.or_eq_true, decide_eq_true_eq, not_or] at h1 h7
    exact isBody_of_forall fun b hb =>
      isPlainByte_of_mem_encode h1.1 h1.2 (by omega) hb

lemma isBody_flatMap_escape (cs : List ℕ) : IsBody (cs.flatMap escape) := by
  induction cs with
  | nil => exact isBody_nil
  | cons c cs ih => exact (isBody_escape c).append ih

/-! ### What a string stands for -/

lemma hexValue?_ofDigit : ∀ d < 16, Byte.hexValue? (Byte.ofDigit d) = some d := by decide

/-- Four digits stand for the number they were written for. -/
lemma exists_hexDigits (hc : c < 0x10000) :
    ∃ w x y z, Text.hexDigits 4 c = [w, x, y, z] ∧ unit? w x y z = some c := by
  refine ⟨_, _, _, _, rfl, ?_⟩
  rw [unit?, hexValue?_ofDigit _ (Nat.mod_lt _ (by decide)),
    hexValue?_ofDigit _ (Nat.mod_lt _ (by decide)), hexValue?_ofDigit _ (Nat.mod_lt _ (by decide)),
    hexValue?_ofDigit _ (Nat.mod_lt _ (by decide))]
  simp only [Option.bind_eq_bind, Option.bind_some, Option.pure_def, Option.some.injEq]
  omega

/-- A code point below the surrogates is no half of a pair. -/
lemma completes?_of_lt (hc : c < 0xD800) (t : Text) : completes? c t = none := by
  have hpair : ∀ low, surrogatePair? c low = none := fun low => by
    rw [surrogatePair?, if_neg]
    simp only [Bool.and_eq_true, decide_eq_true_eq]
    omega
  unfold completes?
  split
  · split_ifs
    · cases unit? _ _ _ _ with
      | none => rfl
      | some low => exact hpair low
    · rfl
  · rfl

lemma unescapeFrom?_drop (skip : ℕ) (t : Text) :
    unescapeFrom? skip t = unescapeFrom? 0 (t.drop skip) := by
  induction t generalizing skip with
  | nil => cases skip <;> rfl
  | cons b t ih =>
      cases skip with
      | zero => rfl
      | succ skip => exact ih skip

lemma unescapeFrom?_cons_of_ne (hb : b ≠ Byte.backslash) (t : Text) :
    unescapeFrom? 0 (b :: t) = (unescapeFrom? 0 t).map (b :: ·) := by
  rw [unescapeFrom?.eq_def]
  exact if_pos hb

lemma unescapeFrom?_plain (h : ∀ b ∈ piece, IsPlainByte b) (t : Text) :
    unescapeFrom? 0 (piece ++ t) = (unescapeFrom? 0 t).map (piece ++ ·) := by
  induction piece with
  | nil => simp
  | cons b piece ih =>
      obtain ⟨hb, hpiece⟩ := List.forall_mem_cons.1 h
      rw [List.cons_append, unescapeFrom?_cons_of_ne hb.2.1, ih hpiece, Option.map_map]
      rfl

/-- A byte behind a backslash, unless it begins a number. -/
lemma unescapeFrom?_pair {e : UInt8} (he : simpleEscape? e = some b) (t : Text) :
    unescapeFrom? 0 (Byte.backslash :: e :: t) = (unescapeFrom? 0 t).map (b :: ·) := by
  have hnumber : e ≠ 117 := by
    rintro rfl
    cases he
  rw [unescapeFrom?, if_neg (by simp), he]
  · simp only [unescapeFrom?_drop 1, List.drop_succ_cons, List.drop_zero]
  · exact fun _ _ _ _ _ h => absurd h hnumber

/-- A number behind a backslash. -/
lemma unescapeFrom?_number (hc : c < 0xD800) (t : Text) :
    unescapeFrom? 0 (Byte.backslash :: 117 :: (Text.hexDigits 4 c ++ t))
      = (unescapeFrom? 0 t).map (encode c ++ ·) := by
  obtain ⟨w, x, y, z, hdigits, hunit⟩ := exists_hexDigits (hc.trans (by decide))
  rw [hdigits, unescapeFrom?.eq_def]
  simp only [List.cons_append, List.nil_append, ne_eq, not_true_eq_false, if_false, hunit,
    completes?_of_lt hc]
  simp only [unescapeFrom?_drop 5, List.drop_succ_cons, List.drop_zero]

/-- What is written for a code point stands for that code point. -/
lemma unescapeFrom?_escape (hc : isScalar c = true) (t : Text) :
    unescapeFrom? 0 (escape c ++ t) = (unescapeFrom? 0 t).map (encode c ++ ·) := by
  rw [escape]
  split_ifs with h1 h2 h3 h4 h5 h6 h7
  · have hcode : c = 34 ∨ c = 92 := by simpa using h1
    rcases hcode with rfl | rfl <;> exact unescapeFrom?_pair rfl t
  · subst h2
    exact unescapeFrom?_pair rfl t
  · subst h3
    exact unescapeFrom?_pair rfl t
  · subst h4
    exact unescapeFrom?_pair rfl t
  · subst h5
    exact unescapeFrom?_pair rfl t
  · subst h6
    exact unescapeFrom?_pair rfl t
  · simp only [Bool.or_eq_true, decide_eq_true_eq] at h7
    exact unescapeFrom?_number (by omega) t
  · simp only [Bool.or_eq_true, decide_eq_true_eq, not_or] at h1 h7
    exact unescapeFrom?_plain (fun b hb => isPlainByte_of_mem_encode h1.1 h1.2 (by omega) hb) t

lemma unescapeFrom?_flatMap_escape {cs : List ℕ} (h : ∀ c ∈ cs, isScalar c = true) :
    unescapeFrom? 0 (cs.flatMap escape) = some (Text.ofRunes cs) := by
  induction cs with
  | nil => rfl
  | cons c cs ih =>
      obtain ⟨hc, hcs⟩ := List.forall_mem_cons.1 h
      rw [List.flatMap_cons, unescapeFrom?_escape hc, ih hcs]
      rfl

/-! ### Whole strings -/

/-- What is written for a code point is well formed. -/
lemma toValid_escape_append (hc : isScalar c = true) (t : Text) :
    Text.toValid (escape c ++ t) = escape c ++ Text.toValid t := by
  -- all escapes are ASCII
  have hascii : ∀ piece : Text, (∀ b ∈ piece, b < 0x80) →
      Text.toValid (piece ++ t) = piece ++ Text.toValid t := by
    intro piece hpiece
    rw [← Text.ofRunes_map_toNat hpiece]
    refine Text.toValid_ofRunes_append (fun c hc => ?_) t
    obtain ⟨b, hb, rfl⟩ := List.mem_map.1 hc
    exact Rune.isScalar_iff.2 (Or.inl ((UInt8.lt_iff_toNat_lt.1 (hpiece b hb)).trans (by decide)))
  rw [escape]
  split_ifs with h1
  · have hcode : c = 34 ∨ c = 92 := by simpa using h1
    refine hascii _ ?_
    rcases hcode with rfl | rfl <;> decide
  · exact hascii _ (by decide)
  · exact hascii _ (by decide)
  · exact hascii _ (by decide)
  · exact hascii _ (by decide)
  · exact hascii _ (by decide)
  · refine hascii _ fun b hb => ?_
    have hdigit : ∀ d < 16, Byte.ofDigit d < 0x80 := by decide
    rcases List.mem_append.1 hb with hb | hb
    · exact (by decide : ∀ b ∈ Text.ofString "\\u", b < 0x80) b hb
    · obtain ⟨d, hd, rfl⟩ := Text.exists_of_mem_hexDigits hb
      exact hdigit d hd
  · have hcs : ∀ c' ∈ [c], isScalar c' = true := by simpa using hc
    simpa [Text.ofRunes] using Text.toValid_ofRunes_append hcs t

lemma toValid_flatMap_escape {cs : List ℕ} (h : ∀ c ∈ cs, isScalar c = true) :
    Text.toValid (cs.flatMap escape) = cs.flatMap escape := by
  induction cs with
  | nil => rfl
  | cons c cs ih =>
      obtain ⟨hc, hcs⟩ := List.forall_mem_cons.1 h
      rw [List.flatMap_cons, toValid_escape_append hc, ih hcs]

/-- **A string reads back as the text that was written**, with U+FFFD in the place of every byte
that is no well-formed UTF-8. -/
theorem readString?_body (t rest : Text) :
    readString? ((Text.runes t).flatMap escape ++ Byte.doubleQuote :: rest)
      = some (Text.toValid t, rest) := by
  have hscalar : ∀ c ∈ Text.runes t, isScalar c = true := fun c => Text.isScalar_of_mem_runes
  have hextent : stringExtent? false ((Text.runes t).flatMap escape ++ Byte.doubleQuote :: rest)
      = some ((Text.runes t).flatMap escape, rest) := by
    rw [isBody_flatMap_escape, stringExtent?, if_pos rfl]
    simp
  rw [readString?, hextent]
  simp only [Option.bind_eq_bind, Option.bind_some, toValid_flatMap_escape hscalar,
    unescapeFrom?_flatMap_escape hscalar]
  rfl

end Json

end MiniProgram
