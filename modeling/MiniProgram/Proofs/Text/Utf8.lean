import MiniProgram.Proofs.Text.Blank

/-!
UTF-8 both ways, for whole texts.

* `Text.runes_ofRunes_append`: code points that are written in front of a text are read in front of
  it.
* `Text.toValid_eq_self_iff`: a text survives reading and writing exactly if it is well formed.
* `Text.runes_eq_map_iff`, `Text.map_suffix_runes_iff`: where ASCII code points are read, these
  bytes stand.
-/

namespace MiniProgram

namespace Text

open Rune (isScalar encode)

variable {t u : Text} {cs ds : List ℕ} {c : ℕ}

/-- A code point that is written in front of a text is read in front of it. -/
lemma runeSpans_encode_append (hc : isScalar c = true) (t : Text) :
    runeSpans (encode c ++ t) = (some c, encode c) :: runeSpans t := by
  obtain ⟨b, bytes, hbytes, hread⟩ := Rune.read?_encode hc t
  rw [hbytes, List.cons_append, runeSpans, runeSpansFrom_cons_of_some hread, runeSpansFrom_eq_drop,
    List.take_left, List.drop_left]

lemma runeSpans_ofRunes_append (h : ∀ c ∈ cs, isScalar c = true) (t : Text) :
    runeSpans (ofRunes cs ++ t) = cs.map (fun c => (some c, encode c)) ++ runeSpans t := by
  induction cs with
  | nil => rfl
  | cons c cs ih =>
      obtain ⟨hc, hcs⟩ := List.forall_mem_cons.1 h
      rw [ofRunes, List.flatMap_cons, List.append_assoc, runeSpans_encode_append hc, ← ofRunes,
        ih hcs]
      rfl

/-- Code points that are written in front of a text are read in front of it. -/
lemma runes_ofRunes_append (h : ∀ c ∈ cs, isScalar c = true) (t : Text) :
    runes (ofRunes cs ++ t) = cs ++ runes t := by
  rw [runes, runeSpans_ofRunes_append h, List.map_append, List.map_map]
  exact congrArg (· ++ _) (List.map_id _)

lemma runes_ofRunes (h : ∀ c ∈ cs, isScalar c = true) : runes (ofRunes cs) = cs := by
  rw [← List.append_nil (ofRunes cs), runes_ofRunes_append h]
  exact List.append_nil cs

/-- Every code point of a text is one that text can hold. -/
lemma isScalar_of_mem_runes (h : c ∈ runes t) : isScalar c = true := by
  obtain ⟨⟨code, bytes⟩, hspan, rfl⟩ := List.mem_map.1 h
  obtain ⟨b, -, ⟨rfl, -⟩ | ⟨rest, code, more, hread, rfl, -⟩⟩ := exists_of_mem_runeSpansFrom hspan
  · rfl
  · exact (Rune.encode_of_read? hread).1

/-- A code point of a text is one of its bytes, or it is beyond ASCII. -/
lemma exists_of_mem_runes (h : c ∈ t.runes) :
    (∃ b ∈ t, b.toNat = c) ∨ 0x80 ≤ c := by
  obtain ⟨⟨code, bytes⟩, hspan, rfl⟩ := List.mem_map.1 h
  obtain ⟨b, hb, ⟨rfl, -⟩ | ⟨rest, c, more, hread, rfl, -⟩⟩ := exists_of_mem_runeSpansFrom hspan
  · exact Or.inr (by decide : 0x80 ≤ Rune.replacement)
  · rcases Rune.bytes_of_read? hread with ⟨-, hcode⟩ | ⟨hbeyond, -⟩
    · exact Or.inl ⟨b, hb, hcode⟩
    · exact Or.inr hbeyond

/-- Code points that are written in front of a text survive reading and writing. -/
lemma toValid_ofRunes_append (h : ∀ c ∈ cs, isScalar c = true) (t : Text) :
    toValid (ofRunes cs ++ t) = ofRunes cs ++ toValid t := by
  rw [toValid, runes_ofRunes_append h, ofRunes, List.flatMap_append]
  rfl

/-- A text survives reading and writing exactly if it is well formed. -/
lemma toValid_eq_self_iff : toValid t = t ↔ valid t = true := by
  constructor
  · intro h
    have hspans := runeSpans_ofRunes_append (fun c hc => isScalar_of_mem_runes (t := t) hc) []
    rw [List.append_nil, ← toValid, h] at hspans
    rw [valid, hspans, List.all_eq_true]
    intro span hspan
    simp only [runeSpans, runeSpansFrom_nil, List.append_nil, List.mem_map] at hspan
    obtain ⟨c, -, rfl⟩ := hspan
    rfl
  · intro h
    rw [valid, List.all_eq_true] at h
    conv_rhs => rw [← flatMap_snd_runeSpans t]
    rw [toValid, ofRunes, runes, List.flatMap_map]
    refine List.flatMap_congr fun span hspan => ?_
    obtain ⟨c, hc⟩ := Option.isSome_iff_exists.1 (h span hspan)
    obtain ⟨code, bytes⟩ := span
    obtain ⟨b, -, ⟨rfl, -⟩ | ⟨rest, code, more, hread, rfl, rfl⟩⟩ :=
      exists_of_mem_runeSpansFrom hspan
    · cases hc
    · exact (Rune.encode_of_read? hread).2

/-- The bytes of an ASCII text are its code points. -/
lemma ofRunes_map_toNat (h : ∀ b ∈ t, b < 0x80) : ofRunes (t.map UInt8.toNat) = t := by
  induction t with
  | nil => rfl
  | cons b t ih =>
      obtain ⟨hb, ht⟩ := List.forall_mem_cons.1 h
      rw [List.map_cons, ofRunes, List.flatMap_cons, ← ofRunes, ih ht,
        Rune.encode_of_lt (UInt8.lt_iff_toNat_lt.1 hb)]
      exact congrArg (· :: t) UInt8.ofNat_toNat

/-! ### ASCII parts -/

variable {b : UInt8}

/-- The code points of a text cut at an ASCII byte. -/
lemma runes_append_cons (hb : b < 0x80) (t u : Text) :
    runes (t ++ b :: u) = runes t ++ b.toNat :: runes u := by
  rw [runes, runeSpans_append_cons hb, List.map_append]
  rfl

lemma runes_of_ascii (h : ∀ b ∈ t, b < 0x80) : runes t = t.map UInt8.toNat := by
  conv_lhs => rw [← ofRunes_map_toNat h]
  refine runes_ofRunes fun c hc => ?_
  obtain ⟨b, hb, rfl⟩ := List.mem_map.1 hc
  have hlow : b.toNat < 0x80 := UInt8.lt_iff_toNat_lt.1 (h b hb)
  exact Rune.isScalar_iff.2 (Or.inl (by omega))

/-- An ASCII code point is read from the byte that it is. -/
lemma snd_of_ascii {span : Option ℕ × Text} (hspan : span ∈ runeSpans t) (hb : b < 0x80)
    (hcode : span.1.getD Rune.replacement = b.toNat) : span.2 = [b] := by
  have hlow : b.toNat < 0x80 := UInt8.lt_iff_toNat_lt.1 hb
  obtain ⟨c, bytes⟩ := span
  obtain ⟨d, -, ⟨rfl, -⟩ | ⟨rest, code, more, hread, rfl, rfl⟩⟩ := exists_of_mem_runeSpansFrom hspan
  · rw [Option.getD_none, Rune.replacement] at hcode
    omega
  · rw [Option.getD_some] at hcode
    rcases Rune.bytes_of_read? hread with ⟨rfl, hd⟩ | ⟨hbeyond, -⟩
    · rw [List.take_zero, UInt8.toNat_inj.1 (hd.trans hcode)]
    · omega

/-- Where ASCII code points are read, these bytes stand. -/
lemma flatMap_snd_of_ascii {spans : List (Option ℕ × Text)} (hspans : ∀ s ∈ spans, s ∈ runeSpans t)
    (hu : ∀ b ∈ u, b < 0x80)
    (h : spans.map (fun s => s.1.getD Rune.replacement) = u.map UInt8.toNat) :
    spans.flatMap Prod.snd = u := by
  induction spans generalizing u with
  | nil =>
      cases u with
      | nil => rfl
      | cons b u => cases h
  | cons span spans ih =>
      cases u with
      | nil => cases h
      | cons b u =>
          obtain ⟨hb, hu⟩ := List.forall_mem_cons.1 hu
          obtain ⟨hspan, hspans⟩ := List.forall_mem_cons.1 hspans
          obtain ⟨hcode, h⟩ := List.cons.inj h
          rw [List.flatMap_cons, snd_of_ascii hspan hb hcode, ih hspans hu h]
          rfl

lemma runes_eq_map_iff (hu : ∀ b ∈ u, b < 0x80) : runes t = u.map UInt8.toNat ↔ t = u := by
  constructor
  · intro h
    rw [← flatMap_snd_runeSpans t]
    exact flatMap_snd_of_ascii (fun s hs => hs) hu h
  · rintro rfl
    exact runes_of_ascii hu

lemma map_suffix_runes_iff (hu : ∀ b ∈ u, b < 0x80) :
    u.map UInt8.toNat <:+ runes t ↔ u <:+ t := by
  constructor
  · rintro ⟨codes, h⟩
    obtain ⟨front, back, hsplit, -, hback⟩ := List.map_eq_append_iff.1 h.symm
    have hmem : ∀ s ∈ back, s ∈ runeSpans t := fun s hs => by
      rw [hsplit]
      exact List.mem_append_right _ hs
    rw [← flatMap_snd_runeSpans t, hsplit, List.flatMap_append,
      flatMap_snd_of_ascii hmem hu hback]
    exact List.suffix_append _ _
  · rintro ⟨s, rfl⟩
    cases u with
    | nil => exact List.nil_suffix
    | cons b u =>
        obtain ⟨hb, hu⟩ := List.forall_mem_cons.1 hu
        rw [runes_append_cons hb, runes_of_ascii hu]
        exact List.suffix_append _ _

end Text

end MiniProgram
