import Mathlib.Data.List.DropRight
import MiniProgram.Proofs.Text.Quoted
import MiniProgram.Text.Blank

/-!
Blanks at the start of a text.

An ASCII byte is a code point of its own wherever it stands, so the code points of a text may be
told part by part where it is cut at such a byte. Blanks in front of a cut do not change what a
trimmed text begins with.

* `runeSpans_append_cons`: **the code points of a text cut at an ASCII byte.**
* `head?_trim`: what a trimmed text begins with.
* `head?_trim_append_cons`: blanks in front.
-/

namespace MiniProgram

namespace Text

variable {t u : Text} {b c : UInt8} {code more skip : ℕ}

/-! ### Cutting at an ASCII byte -/

lemma runeSpansFrom_append_cons (hb : b < 0x80) (hskip : skip ≤ t.length) (u : Text) :
    runeSpansFrom skip (t ++ b :: u)
      = runeSpansFrom skip t ++ (some b.toNat, [b]) :: runeSpans u := by
  induction t generalizing skip with
  | nil =>
      obtain rfl : skip = 0 := by simpa using hskip
      rw [List.nil_append, runeSpansFrom_cons_of_some (Rune.read?_of_ascii hb u), List.take_zero,
        runeSpansFrom_nil, List.nil_append, runeSpans]
  | cons c t ih =>
      cases skip with
      | succ skip =>
          rw [List.cons_append, runeSpansFrom_succ_cons, runeSpansFrom_succ_cons]
          exact ih (by simpa using hskip)
      | zero =>
          have hsame := Rune.read?_append_cons hb c t u
          cases hread : Rune.read? c t with
          | none =>
              rw [List.cons_append, runeSpansFrom_cons_of_none (hsame.trans hread),
                runeSpansFrom_cons_of_none hread, ih (Nat.zero_le _), List.cons_append]
          | some found =>
              obtain ⟨code, more⟩ := found
              have hmore := Rune.le_length_of_read? hread
              rw [List.cons_append, runeSpansFrom_cons_of_some (hsame.trans hread),
                runeSpansFrom_cons_of_some hread, ih hmore, List.take_append_of_le_length hmore,
                List.cons_append]

/-- **The code points of a text cut at an ASCII byte.** -/
theorem runeSpans_append_cons (hb : b < 0x80) (t u : Text) :
    runeSpans (t ++ b :: u) = runeSpans t ++ (some b.toNat, [b]) :: runeSpans u :=
  runeSpansFrom_append_cons hb (Nat.zero_le _) u

/-! ### What a trimmed text begins with -/

lemma bytes_ne_nil {span : Option ℕ × Text} (h : span ∈ runeSpans t) : span.2 ≠ [] := by
  obtain ⟨c, bytes⟩ := span
  obtain ⟨b, -, ⟨-, rfl, -⟩ | ⟨rest, code, more, -, -, rfl⟩⟩ := exists_of_mem_runeSpansFrom h
  · exact List.cons_ne_nil _ _
  · exact List.cons_ne_nil _ _

/-- The first code point of a text that is no blank. -/
def firstSpan? (t : Text) : Option (Option ℕ × Text) :=
  (runeSpans t).find? fun span => !isBlankSpan span

/-- Dropping from the end keeps a first member that is not dropped. -/
lemma exists_rdropWhile_cons {α : Type} {p : α → Bool} {x : α} (hx : p x = false) (xs : List α) :
    ∃ ys, (x :: xs).rdropWhile p = x :: ys := by
  have hne : (x :: xs).rdropWhile p ≠ [] := by
    rw [Ne, List.rdropWhile_eq_nil_iff]
    intro h
    exact absurd (h x List.mem_cons_self) (by simp [hx])
  obtain ⟨ys, hys, -⟩ := (List.prefix_cons_iff.1 (List.rdropWhile_prefix p _)).resolve_left hne
  exact ⟨ys, hys⟩

/-- A trimmed text begins with the first code point that is no blank. -/
lemma head?_trim (t : Text) : (trim t).head? = (firstSpan? t).bind fun span => span.2.head? := by
  have hinner : firstSpan? t = ((runeSpans t).dropWhile isBlankSpan).head? :=
    List.find?_not_eq_head?_dropWhile ..
  cases hfirst : firstSpan? t with
  | none =>
      rw [hfirst, eq_comm, List.head?_eq_none_iff] at hinner
      rw [trim, hinner]
      rfl
  | some span =>
      obtain ⟨b, bytes, hbytes⟩ :=
        List.exists_cons_of_ne_nil (bytes_ne_nil (List.mem_of_find?_eq_some hfirst))
      rw [hfirst, eq_comm, List.head?_eq_some_iff] at hinner
      obtain ⟨spans, hspans⟩ := hinner
      have hspan : isBlankSpan span = false := by simpa using List.find?_some hfirst
      obtain ⟨rest, hrest⟩ := exists_rdropWhile_cons hspan spans
      rw [List.rdropWhile] at hrest
      rw [trim, hspans]
      simp only [hrest, List.flatMap_cons, hbytes, List.cons_append, List.head?_cons,
        Option.bind_some]

/-- Nothing is left of a text exactly if it is blank. -/
lemma trim_eq_nil_iff : trim t = [] ↔ firstSpan? t = none := by
  rw [← List.head?_eq_none_iff, head?_trim]
  cases hfirst : firstSpan? t with
  | none => simp
  | some span => simpa using bytes_ne_nil (List.mem_of_find?_eq_some hfirst)

/-- A blank text has no ASCII byte but blanks. -/
lemma isBlank_of_trim_eq_nil (h : trim t = []) (hmem : b ∈ t) (hb : b < 0x80) :
    Rune.isBlank b.toNat = true := by
  have hblank := List.find?_eq_none.1 (trim_eq_nil_iff.1 h) _ (mem_runeSpans_of_mem hmem hb)
  simpa [isBlankSpan] using hblank

/-- A blank part that an ASCII blank ends does not change what a trimmed text begins with. -/
lemma head?_trim_append_cons (hb : b < 0x80) (hblank : Rune.isBlank b.toNat = true)
    (h : trim t = []) (u : Text) : (trim (t ++ b :: u)).head? = (trim u).head? := by
  have hspan : isBlankSpan (some b.toNat, [b]) = true := hblank
  have hfirst : firstSpan? (t ++ b :: u) = firstSpan? u := by
    rw [trim_eq_nil_iff, firstSpan?] at h
    rw [firstSpan?, runeSpans_append_cons hb, List.find?_append, h, Option.none_or,
      List.find?_cons_of_neg (by simp [hspan])]
    rfl
  rw [head?_trim, head?_trim, hfirst]

end Text

end MiniProgram
