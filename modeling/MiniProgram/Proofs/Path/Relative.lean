import MiniProgram.Proofs.Path.Clean

/-!
Relative specifiers: the way from a module to another leads there.

* `dir_join`: the directory of a sequence of names.
* `foldl_relativeSegments`: the segments that lead from a directory to a target take a stack that
  stands at the directory to the target.
* `join_dir_relativeImport`: joined with the directory of its module, the specifier of a target is
  the path of the target in its normal form.
-/

namespace MiniProgram

namespace Path

variable {dirs target : List Text} {last : Text}

/-! ### Directories -/

/-- The directory of a path is spelled by all segments but the last. -/
lemma Resolved.dir_join (hd : Resolved false dirs) (hl : Byte.slash ∉ last) :
    dir (Text.join [Byte.slash] (dirs ++ [last]))
      = if dirs = [] then ("." : Text) else Text.join [Byte.slash] dirs := by
  -- from the end, the last segment goes up to the slash before it
  have hdrop : ∀ rest : Text, (last.reverse ++ rest).dropWhile (· ≠ Byte.slash)
      = rest.dropWhile (· ≠ Byte.slash) := by
    intro rest
    refine List.dropWhile_append_of_pos fun b hb => ?_
    rw [List.mem_reverse] at hb
    exact decide_eq_true fun heq => hl (heq ▸ hb)
  by_cases hne : dirs = []
  · subst hne
    have hlast := hdrop []
    rw [List.append_nil, List.dropWhile_nil] at hlast
    rw [dir, if_pos rfl, List.nil_append, Text.join_singleton, hlast]
    rfl
  · have hcut : ((Text.join [Byte.slash] (dirs ++ [last])).reverse.dropWhile
        (· ≠ Byte.slash)).reverse = Text.join [Byte.slash] dirs ++ [Byte.slash] := by
      rw [Text.join_append hne (List.cons_ne_nil _ _), Text.join_singleton, List.reverse_append,
        hdrop, List.reverse_append, List.reverse_singleton, List.singleton_append,
        List.dropWhile_cons_of_neg (by simp)]
      simp
    have hsplit : Text.split Byte.slash (Text.join [Byte.slash] dirs ++ [Byte.slash])
        = dirs ++ [[]] := by
      rw [Text.split_append, Text.split_join hne hd.no_slash]
      rfl
    have habs : isAbsolute (Text.join [Byte.slash] dirs ++ [Byte.slash]) = false := by
      have hspell : Text.join [Byte.slash] dirs ≠ [] := hd.spell_ne_nil hne
      rw [isAbsolute_append hspell]
      exact hd.isAbsolute_spell
    have hclean : cleanSegments false (dirs ++ [[]]) = dirs := by
      rw [cleanSegments_concat, pushSegment_nil, List.reverse_reverse, hd.clean]
    rw [dir, hcut, if_neg hne, clean_eq_spell, habs, hsplit, hclean]
    · rfl
    · rw [hsplit, hclean]
      exact Or.inr hne

lemma dir_join (hd : ∀ s ∈ dirs, IsName s) (hl : Byte.slash ∉ last) :
    dir (Text.join [Byte.slash] (dirs ++ [last]))
      = if dirs = [] then ("." : Text) else Text.join [Byte.slash] dirs :=
  (resolved_of_isName hd).dir_join hl

/-- The segments of the directory of a path are found again in it. -/
lemma Resolved.dirSegments_dir (hd : Resolved false dirs) (hl : Byte.slash ∉ last) :
    dirSegments (dir (Text.join [Byte.slash] (dirs ++ [last]))) = dirs := by
  rw [hd.dir_join hl]
  by_cases hne : dirs = []
  · subst hne
    rfl
  · have hspell : Text.join [Byte.slash] dirs ≠ [] := hd.spell_ne_nil hne
    rw [if_neg hne, dirSegments, if_neg, Text.split_join hne hd.no_slash]
    simp [hspell, join_ne_dot hd]

/-- Resolving starts from the names of the directory. -/
lemma foldl_split_dir (hd : ∀ s ∈ dirs, IsName s) (hl : Byte.slash ∉ last) :
    (Text.split Byte.slash (dir (Text.join [Byte.slash] (dirs ++ [last])))).foldl
      (pushSegment false) [] = dirs.reverse := by
  rw [dir_join hd hl]
  by_cases hne : dirs = []
  · subst hne
    rfl
  · rw [if_neg hne, Text.split_join hne fun s hs => (hd s hs).no_slash,
      foldl_pushSegment_of_isName hd, List.append_nil]

/-! ### The way to a target -/

lemma foldl_climb (hd : ∀ s ∈ dirs, IsName s) (kept : List Text) :
    (climb dirs).foldl (pushSegment false) (dirs.reverse ++ kept) = kept := by
  -- the last directory is left first, so the induction is on the directories from the right
  induction dirs using List.reverseRecOn with
  | nil => rfl
  | append_singleton dirs d ih =>
      have hclimb : climb (dirs ++ [d]) = (".." : Text) :: climb dirs := by
        rw [climb, climb, List.map_const', List.map_const', List.length_append,
          List.length_singleton, List.replicate_succ]
      rw [hclimb, List.reverse_concat, List.cons_append, List.foldl_cons,
        pushSegment_parent (hd d (by simp)).ne_parent]
      exact ih fun s hs => hd s (by simp [hs])

/-- The way from a directory to a target, walked from the directory, leads where the target itself
leads from the start. -/
theorem foldl_relativeSegments (hd : ∀ s ∈ dirs, IsName s) (target kept : List Text) :
    (relativeSegments dirs target).foldl (pushSegment false) (dirs.reverse ++ kept)
      = target.foldl (pushSegment false) kept := by
  -- a common directory stays on the stack for the rest of the way
  induction dirs, target using relativeSegments.induct generalizing kept with
  | case1 d dirs s rest hcommon ih =>
      obtain ⟨rfl, -⟩ : d = s ∧ (!rest.isEmpty) = true := by simpa using hcommon
      have hrest := ih (fun s hs => hd s (by simp [hs])) (d :: kept)
      rw [relativeSegments, if_pos hcommon, List.foldl_cons, pushSegment_name (hd d (by simp))]
      simpa using hrest
  | case2 d dirs s rest hcommon =>
      rw [relativeSegments, if_neg hcommon, List.foldl_append, foldl_climb hd]
  | case3 dirs target hnot =>
      rw [relativeSegments, List.foldl_append, foldl_climb hd]
      exact hnot

lemma relativeSegments_no_slash (ht : ∀ s ∈ target, Byte.slash ∉ s) :
    ∀ s ∈ relativeSegments dirs target, Byte.slash ∉ s := by
  have hclimb : ∀ dirs : List Text, ∀ s ∈ climb dirs, Byte.slash ∉ s := by
    intro dirs s hs
    obtain ⟨d, -, rfl⟩ := List.mem_map.1 hs
    decide
  induction dirs, target using relativeSegments.induct with
  | case1 d dirs s rest hcommon ih =>
      rw [relativeSegments, if_pos hcommon]
      exact ih fun s hs => ht s (by simp [hs])
  | case2 d dirs s rest hcommon =>
      rw [relativeSegments, if_neg hcommon]
      exact fun x hx => (List.mem_append.1 hx).elim (hclimb _ x) (ht x)
  | case3 dirs target hnot =>
      rw [relativeSegments]
      · exact fun x hx => (List.mem_append.1 hx).elim (hclimb _ x) (ht x)
      · exact hnot

lemma relativeSegments_ne_nil (hne : target ≠ []) : relativeSegments dirs target ≠ [] := by
  induction dirs, target using relativeSegments.induct with
  | case1 d dirs s rest hcommon ih =>
      rw [relativeSegments, if_pos hcommon]
      refine ih fun hnil => ?_
      simp [hnil] at hcommon
  | case2 d dirs s rest hcommon =>
      rw [relativeSegments, if_neg hcommon]
      simp
  | case3 dirs target hnot =>
      rw [relativeSegments]
      · exact List.append_ne_nil_of_right_ne_nil _ hne
      · exact hnot

/-- A `./` in front of a specifier makes no difference to where it leads. -/
lemma foldl_split_relative (rel : Text) (kept : List Text) :
    (Text.split Byte.slash (if Text.startsWith rel "." then rel else "./" ++ rel)).foldl
      (pushSegment false) kept = (Text.split Byte.slash rel).foldl (pushSegment false) kept := by
  split_ifs
  · rfl
  · have hcons : ("./" : Text) ++ rel = ("." : Text) ++ Byte.slash :: rel := rfl
    have hdot : Text.split Byte.slash ("." : Text) = [("." : Text)] := by decide
    rw [hcons, Text.split_append, hdot]
    rfl

/-- **The way to a module leads there**: seen from the directory of the importing module, the
specifier of the imported one is its path, brought to its normal form. -/
theorem join_dir_relativeImport {source target : Text} (hs : IsPlain source)
    (ht : normalize target ≠ []) :
    Path.join [dir source, relativeImport source target] = normalize target := by
  obtain ⟨dirs, last, hsplit⟩ : ∃ dirs last, Text.split Byte.slash source = dirs ++ [last] :=
    ⟨_, _, (List.dropLast_append_getLast (Text.split_ne_nil Byte.slash source)).symm⟩
  have hnames := hs.isName
  rw [hsplit] at hnames
  have hd : ∀ s ∈ dirs, IsName s := fun s h => hnames s (by simp [h])
  have hl : Byte.slash ∉ last := (hnames last (by simp)).no_slash
  have hsource : source = Text.join [Byte.slash] (dirs ++ [last]) := by
    rw [← hsplit, Text.join_split]
  have hdir : dir source ≠ [] ∧ isAbsolute (dir source) = false := by
    rw [hsource, dir_join hd hl]
    split_ifs with hne
    · exact ⟨by decide, by decide⟩
    · have hplain := isPlain_join hne hd
      exact ⟨hplain.ne_nil, isAbsolute_eq_false_of_isName hplain.isName⟩
  have hres := resolved_split_of_normal (normalize_idem target) ht
  -- the specifier is walked from the directory of the source
  have hsegs : cleanSegments false (Text.split Byte.slash (dir source)
      ++ Text.split Byte.slash (relativeImport source target))
        = Text.split Byte.slash (normalize target) := by
    rw [relativeImport, hs.normal, cleanSegments, List.foldl_append, foldl_split_relative, hsource,
      foldl_split_dir hd hl, (resolved_of_isName hd).dirSegments_dir hl, slash_text,
      Text.split_join (relativeSegments_ne_nil (Text.split_ne_nil _ _))
        (relativeSegments_no_slash hres.no_slash), ← List.append_nil dirs.reverse,
      foldl_relativeSegments hd, ← cleanSegments, hres.clean]
  rw [join_eq_spell hdir.1, hdir.2, hsegs]
  · exact Text.join_split Byte.slash (normalize target)
  · rw [hsegs]
    exact Or.inr (Text.split_ne_nil _ _)

end Path

end MiniProgram
