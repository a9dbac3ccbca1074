import MiniProgram.Proofs.Path.Climbing

/-!
Normal forms of paths, read off their text.

A path in normal form spells resolved segments, so its text shows what it leads to: it climbs over
some directories, then goes down by names.

* `InNormalForm`: what the text of a normal form looks like.
* `Resolved.inNormalForm`, `InNormalForm.resolved`: such texts are the spellings of resolved
  segments.
* `inNormalForm_normalize_iff`: **normalizing** a path gives a text of this form, and changes
  exactly the texts that are not of this form.
-/

namespace MiniProgram

namespace Path

variable {segs : List Text} {p : Text}

/-- The form of a normal path: it has no root in front; its segments are neither empty nor `.`; and
its parent references stand before all other segments. The empty path has no segments. -/
structure InNormalForm (p : Text) : Prop where
  relative : isAbsolute p = false
  segment : ∀ s ∈ segments p, s ≠ [] ∧ s ≠ ("." : Text)
  leading : ∃ n rest, segments p = List.replicate n (".." : Text) ++ rest ∧ (".." : Text) ∉ rest

lemma no_slash_of_mem_segments {s : Text} (hs : s ∈ segments p) : Byte.slash ∉ s := by
  rw [segments] at hs
  split_ifs at hs
  · cases hs
  · exact no_slash_of_mem_split hs

/-- The segments of a path joined again. -/
lemma join_segments (p : Text) : Text.join [Byte.slash] (segments p) = p := by
  rw [segments]
  split_ifs with hp
  · rw [hp, Text.join_nil]
  · exact Text.join_split Byte.slash p

/-- Segments that are resolved are found again in the path they spell. -/
lemma Resolved.segments_join (h : Resolved false segs) :
    segments (Text.join [Byte.slash] segs) = segs := by
  by_cases hne : segs = []
  · rw [hne]
    rfl
  · have hjoin : Text.join [Byte.slash] segs ≠ [] := h.spell_ne_nil hne
    rw [segments, if_neg hjoin, Text.split_join hne h.no_slash]

/-- Resolved segments spell a text of this form. -/
lemma Resolved.inNormalForm (h : Resolved false segs) :
    InNormalForm (Text.join [Byte.slash] segs) := by
  obtain ⟨hform, hnames⟩ := cleanSegments_eq h.no_slash
  rw [h.clean] at hform
  refine ⟨h.isAbsolute_spell, ?_, climbs segs, landing segs, ?_, fun hmem => ?_⟩
  · rw [h.segments_join, hform]
    intro s hs
    rcases List.mem_append.1 hs with hs | hs
    · rw [List.eq_of_mem_replicate hs]
      decide
    · exact ⟨(hnames s hs).ne_nil, (hnames s hs).ne_dot⟩
  · rw [h.segments_join]
    exact hform
  · exact isName_not_parent (hnames _ hmem)

/-- The segments of a text of this form are resolved. -/
lemma InNormalForm.resolved (h : InNormalForm p) : Resolved false (segments p) := by
  obtain ⟨n, rest, hsegs, hparent⟩ := h.leading
  have hnames : ∀ s ∈ rest, IsName s := by
    intro s hs
    have hmem : s ∈ segments p := by
      rw [hsegs]
      exact List.mem_append_right _ hs
    obtain ⟨hne, hdot⟩ := h.segment s hmem
    exact ⟨hne, hdot, fun heq => hparent (heq ▸ hs), no_slash_of_mem_segments hmem⟩
  rw [hsegs]
  exact resolved_replicate_append n hnames

/-- A path that is its own normal form is of this form. -/
lemma inNormalForm_of_normalize_eq (h : normalize p = p) : InNormalForm p := by
  have hres := resolved_cleanSegments false fun x hx => no_slash_of_mem_split (p := p) hx
  have hform := hres.inNormalForm
  rwa [join_cleanSegments_of_normal h] at hform

lemma InNormalForm.normalize_eq (h : InNormalForm p) : normalize p = p :=
  calc normalize p
      = normalize (Text.join [Byte.slash] (segments p)) := by rw [join_segments]
    _ = Text.join [Byte.slash] (segments p) := h.resolved.normalize_join
    _ = p := join_segments p

/-- **The normal form.** Every path is brought to a text of the normal form; the texts of this form
are exactly those that stay as they are; so bringing a path to its normal form once more changes
nothing. -/
theorem inNormalForm_normalize_iff (p : Text) :
    InNormalForm (normalize p) ∧ (InNormalForm p ↔ normalize p = p)
      ∧ normalize (normalize p) = normalize p :=
  ⟨inNormalForm_of_normalize_eq (normalize_idem p),
    ⟨InNormalForm.normalize_eq, inNormalForm_of_normalize_eq⟩, normalize_idem p⟩

end Path

end MiniProgram
