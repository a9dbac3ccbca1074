import MiniProgram.Proofs.Text.Numeral

/-!
Phrases in a text that is put together from parts.

A phrase lies across the joint of two parts only if it has a byte of each; so a byte that it lacks,
next to the joint, keeps it within one of them.

* `infix_append_cons_iff`, `cons_infix_append_iff`: a joint that a phrase cannot lie across.
* `LinesWithout`, `LinesWithout.append`, `LinesWithout.flatMap`: lines without a phrase are put
  together to lines without it.
-/

namespace MiniProgram

namespace Text

variable {b c : UInt8} {w t u : Text}

/-! ### Joints -/

/-- A phrase without the byte at a joint lies on one side of it. -/
lemma infix_append_cons_iff (hc : c ∉ w) : w <:+: t ++ c :: u ↔ w <:+: t ∨ w <:+: u := by
  constructor
  · intro h
    rcases List.infix_append_iff_ne_nil.1 h with h | h | ⟨w₁, w₂, -, hne, rfl, -, hpre⟩
    · exact Or.inl h
    · rcases List.infix_cons_iff.1 h with hpre | h
      · cases w with
        | nil => exact Or.inr (List.nil_infix)
        | cons b w =>
            obtain ⟨rfl, -⟩ := List.cons_prefix_cons.1 hpre
            exact absurd List.mem_cons_self hc
      · exact Or.inr h
    · cases w₂ with
      | nil => exact absurd rfl hne
      | cons b w₂ =>
          obtain ⟨rfl, -⟩ := List.cons_prefix_cons.1 hpre
          exact absurd (List.mem_append_right _ List.mem_cons_self) hc
  · rintro (h | h)
    · exact List.infix_append_of_infix_left h
    · exact List.infix_append_of_infix_right (List.infix_cons_iff.2 (Or.inr h))

/-- A phrase does not begin in a part without its first byte. -/
lemma cons_infix_append_iff (hb : b ∉ t) : b :: w <:+: t ++ u ↔ b :: w <:+: u := by
  refine ⟨fun h => ?_, List.infix_append_of_infix_right⟩
  rcases List.infix_append_iff_ne_nil.1 h with h | h | ⟨w₁, w₂, hne, -, hw, hsuf, -⟩
  · exact absurd (h.subset List.mem_cons_self) hb
  · exact h
  · cases w₁ with
    | nil => exact absurd rfl hne
    | cons d w₁ =>
        cases hw
        exact absurd (hsuf.subset List.mem_cons_self) hb

/-- A phrase does not end with a last byte that it does not end with. -/
lemma infix_append_singleton_iff (hw : w ≠ []) (hc : w.getLast? ≠ some c) :
    w <:+: t ++ [c] ↔ w <:+: t := by
  refine ⟨fun h => ?_, List.infix_append_of_infix_left⟩
  rcases List.infix_concat_iff.1 h with h | h
  · obtain ⟨s, hs⟩ := h
    have hlast := congrArg List.getLast? hs
    rw [List.getLast?_append_of_ne_nil _ hw, List.getLast?_concat] at hlast
    exact absurd hlast hc
  · exact h

/-! ### Lines -/

/-- The end of a line is no part of a phrase. -/
lemma infix_line_iff (hw : w ≠ []) (hline : Byte.newline ∉ w) : w <:+: t ++ "\n" ↔ w <:+: t :=
  infix_append_singleton_iff hw fun hlast => hline (List.mem_of_getLast? hlast)

/-- A text of whole lines that does not contain a phrase. -/
structure LinesWithout (w t : Text) : Prop where
  whole : t = [] ∨ ∃ s, t = s ++ [Byte.newline]
  free : ¬ w <:+: t

namespace LinesWithout

lemma nil (hw : w ≠ []) : LinesWithout w [] :=
  ⟨Or.inl rfl, fun h => hw (List.infix_nil.1 h)⟩

/-- A line without the phrase. -/
lemma of_line (hw : w ≠ []) (hline : Byte.newline ∉ w) (h : ¬ w <:+: t) :
    LinesWithout w (t ++ "\n") :=
  ⟨Or.inr ⟨t, rfl⟩, fun hin => h ((infix_line_iff hw hline).1 hin)⟩

/-- Lines without a phrase in front of a text do not matter for whether it holds the phrase. -/
lemma infix_append_iff (hline : Byte.newline ∉ w) (h : LinesWithout w t) :
    w <:+: t ++ u ↔ w <:+: u := by
  rcases h.whole with rfl | ⟨s, rfl⟩
  · rw [List.nil_append]
  · have hs : ¬ w <:+: s := fun hin => h.free (List.infix_append_of_infix_left hin)
    rw [List.append_assoc, List.singleton_append, infix_append_cons_iff hline, or_iff_right hs]

/-- Lines without a phrase after a line do not matter for whether that holds the phrase. -/
lemma infix_line_append_iff (hline : Byte.newline ∉ w) (h : LinesWithout w u) :
    w <:+: t ++ "\n" ++ u ↔ w <:+: t := by
  rw [show t ++ "\n" ++ u = t ++ Byte.newline :: u from List.append_assoc t _ u,
    infix_append_cons_iff hline, or_iff_left h.free]

/-- Lines without a phrase, one part after the other. -/
lemma append (hline : Byte.newline ∉ w) (ht : LinesWithout w t) (hu : LinesWithout w u) :
    LinesWithout w (t ++ u) := by
  refine ⟨?_, fun h => hu.free ((ht.infix_append_iff hline).1 h)⟩
  rcases hu.whole with rfl | ⟨s, rfl⟩
  · simpa using ht.whole
  · exact Or.inr ⟨t ++ s, (List.append_assoc _ _ _).symm⟩

lemma flatMap {α : Type} {f : α → Text} {xs : List α} (hw : w ≠ []) (hline : Byte.newline ∉ w)
    (h : ∀ x ∈ xs, LinesWithout w (f x)) : LinesWithout w (xs.flatMap f) := by
  induction xs with
  | nil => exact nil hw
  | cons x xs ih =>
      rw [List.flatMap_cons]
      exact (h x List.mem_cons_self).append hline (ih fun y hy => h y (List.mem_cons_of_mem x hy))

end LinesWithout

end Text

end MiniProgram
