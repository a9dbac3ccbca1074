import MiniProgram.Proofs.Path.Clean

/-!
The way from one rooted path to another.

Below the root of the file system a path is the spelling of names, and the way between two of them
depends on their names only.

* `AtOrBelow`, `atOrBelow_spell_iff`: a path that stands for a directory or something in it,
  however it is spelled, has names that begin with those of the directory.
* `relativeTo?_eq`: the way between two rooted paths is the way between their names.
* `segmentsBetween?_append`, `segmentsBetween?_of_not_prefix`: the way into a directory is what its
  names are continued by, and any other begins by leaving a directory.
-/

namespace MiniProgram

namespace Path

variable {dirs names rest : List Text} {root p : Text}

/-! ### Spellings below the root -/

/-- Names are determined by what they spell. -/
lemma spell_true_injective (hd : ∀ s ∈ dirs, IsName s) (hn : ∀ s ∈ names, IsName s)
    (h : spell true dirs = spell true names) : dirs = names := by
  have hsegs : cleanSegments true (Text.split Byte.slash (spell true dirs))
      = cleanSegments true (Text.split Byte.slash (spell true names)) := by rw [h]
  have hspell (segs : List Text) (hs : ∀ s ∈ segs, IsName s) :
      cleanSegments true (Text.split Byte.slash (spell true segs)) = segs := by
    rw [cleanSegments, foldl_split_spell fun s h => (hs s h).no_slash, ← cleanSegments,
      (resolved_of_isName hs).clean]
  rwa [hspell dirs hd, hspell names hn] at hsegs

/-- What names spell is cleaned already. -/
lemma clean_spell_true (hn : ∀ s ∈ names, IsName s) :
    clean (spell true names) = spell true names :=
  (resolved_of_isName hn).clean_spell (Or.inl rfl)

/-- A cleaned absolute path is the spelling of its names. -/
lemma clean_of_isAbsolute (h : isAbsolute p = true) :
    clean p = spell true (cleanSegments true (Text.split Byte.slash p)) := by
  rw [clean_eq_spell (Or.inl h), h]

lemma isName_of_mem_cleanSegments_split (p : Text) :
    ∀ s ∈ cleanSegments true (Text.split Byte.slash p), IsName s :=
  isName_of_mem_cleanSegments fun _ hx => no_slash_of_mem_split hx

/-- Whether a path, however it is spelled, stands for a directory or something in it. -/
def AtOrBelow (top p : Text) : Prop := clean p = top ∨ StrictlyBelow top (clean p)

lemma atOrBelow_iff (hd : ∀ s ∈ dirs, IsName s) :
    AtOrBelow (spell true dirs) p
      ↔ ∃ rest, (∀ s ∈ rest, IsName s) ∧ clean p = spell true (dirs ++ rest) := by
  constructor
  · intro h
    have habs : isAbsolute (clean p) = true := by
      rcases h with h | ⟨rest, -, h⟩
      · rw [h]
        rfl
      · rw [h]
        split_ifs <;> rfl
    rw [isAbsolute_clean] at habs
    have hnames := isName_of_mem_cleanSegments_split p
    rw [AtOrBelow, clean_of_isAbsolute habs, strictlyBelow_spell_iff hd hnames] at h
    rw [clean_of_isAbsolute habs]
    rcases h with h | ⟨rest, -, h⟩
    · exact ⟨[], by simp, by rw [h, List.append_nil]⟩
    · rw [h] at hnames ⊢
      exact ⟨rest, (List.forall_mem_append.1 hnames).2, rfl⟩
  · rintro ⟨rest, hrest, hclean⟩
    rw [AtOrBelow, hclean]
    by_cases hne : rest = []
    · rw [hne, List.append_nil]
      exact Or.inl rfl
    · have hnames := List.forall_mem_append.2 ⟨hd, hrest⟩
      exact Or.inr ((strictlyBelow_spell_iff hd hnames).2 ⟨rest, hne, rfl⟩)

/-- A path lies at or below a directory exactly if its names begin with those of the directory. -/
lemma atOrBelow_spell_iff (hd : ∀ s ∈ dirs, IsName s) (hn : ∀ s ∈ names, IsName s)
    (hp : clean p = spell true names) : AtOrBelow (spell true dirs) p ↔ dirs <+: names := by
  rw [atOrBelow_iff hd, hp]
  constructor
  · rintro ⟨rest, hrest, heq⟩
    exact ⟨rest, (spell_true_injective hn (List.forall_mem_append.2 ⟨hd, hrest⟩) heq).symm⟩
  · rintro ⟨rest, rfl⟩
    exact ⟨rest, (List.forall_mem_append.1 hn).2, rfl⟩

/-! ### The way between two paths -/

/-- Common directories are left out. -/
lemma segmentsBetween?_append (dirs rest : List Text) :
    segmentsBetween? dirs (dirs ++ rest) = some rest := by
  induction dirs with
  | nil => cases rest <;> rfl
  | cons d dirs ih => rw [List.cons_append, segmentsBetween?, if_pos rfl, ih]

/-- The way out of a directory begins with a parent reference. -/
lemma segmentsBetween?_of_not_prefix (hd : ∀ s ∈ dirs, IsName s) (h : ¬ dirs <+: names) :
    ∃ rest, segmentsBetween? dirs names = some ((".." : Text) :: rest) := by
  induction dirs generalizing names with
  | nil => exact absurd (List.nil_prefix) h
  | cons d dirs ih =>
      cases names with
      | nil => exact ⟨_, rfl⟩
      | cons s names =>
          rw [segmentsBetween?]
          split_ifs with hsame hparent
          · subst hsame
            rw [List.cons_prefix_cons, and_iff_right rfl] at h
            exact ih (fun s hs => hd s (List.mem_cons_of_mem _ hs)) h
          · exact absurd hparent (hd d List.mem_cons_self).ne_parent
          · exact ⟨_, rfl⟩

/-- The first of some joined segments is found again. -/
lemma mem_split_join_cons {s : Text} (hs : Byte.slash ∉ s) (rest : List Text) :
    s ∈ Text.split Byte.slash (Text.join [Byte.slash] (s :: rest)) := by
  have hself : s ∈ Text.split Byte.slash s := by simp [Text.split_eq_singleton hs]
  cases rest with
  | nil => rwa [Text.join_singleton]
  | cons t rest =>
      have hjoin : Text.join [Byte.slash] (s :: t :: rest)
          = s ++ Byte.slash :: Text.join [Byte.slash] (t :: rest) := by
        rw [Text.join_cons (List.cons_ne_nil t rest), List.append_assoc]
        rfl
      rw [hjoin, Text.split_append]
      exact List.mem_append_left _ hself

/-- The segments of a rooted path, read off its spelling. -/
lemma segments_spell (hd : ∀ s ∈ dirs, IsName s) :
    (if spell true dirs = ("/" : Text) then []
      else Text.split Byte.slash (Text.trimStart (spell true dirs) "/")) = dirs := by
  by_cases hne : dirs = []
  · subst hne
    rfl
  · have htop : spell true dirs ≠ ("/" : Text) := fun h =>
      hne ((Text.join_eq_nil_iff fun s hs => (hd s hs).ne_nil).1 (List.cons_injective h))
    have htrim : Text.trimStart (spell true dirs) "/" = Text.join [Byte.slash] dirs :=
      Text.trimStart_append [Byte.slash] _
    rw [if_neg htop, htrim, Text.split_join hne fun s hs => (hd s hs).no_slash]

/-- The way between two rooted paths is the way between their names. -/
lemma relativeTo?_eq (hd : ∀ s ∈ dirs, IsName s) (hn : ∀ s ∈ names, IsName s)
    (hroot : clean root = spell true dirs) (hp : clean p = spell true names) :
    relativeTo? root p = if dirs = names then some ("." : Text)
      else (segmentsBetween? dirs names).map (Text.join [Byte.slash]) := by
  have hrooted (segs : List Text) : isAbsolute (spell true segs) = true := rfl
  have hdot : spell true dirs ≠ ("." : Text) := fun h => by
    have habs : true = isAbsolute ("." : Text) := congrArg isAbsolute h
    exact absurd habs (by decide)
  simp only [relativeTo?, hroot, hp, hrooted, ne_eq, not_true_eq_false, if_false, if_neg hdot,
    segments_spell hd, segments_spell hn]
  by_cases hsame : dirs = names
  · rw [if_pos hsame, if_pos (by rw [hsame])]
  · rw [if_neg hsame, if_neg fun h => hsame (spell_true_injective hd hn h)]
    rfl

end Path

end MiniProgram
