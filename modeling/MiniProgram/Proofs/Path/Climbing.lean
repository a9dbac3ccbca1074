import MiniProgram.Proofs.Path.Plain

/-!
Paths that climb.

A path in normal form is spelled by a number of parent references and the names that follow them.
At the root of the file system the parent references are lost, so the place of a file does not tell
by how many of them it was reached.

* `climbs_of_cleanSegments`, `landing_of_cleanSegments`: how far segments climb and where they land,
  read off their resolved form.
* `isPlain_of_normal_append`: a path in normal form that goes down from a plain directory is plain.
* `eq_of_join_eq`: below an absolute directory, paths in normal form that climb equally far and lead
  to the same place are the same.
-/

namespace MiniProgram

namespace Path

variable {segs names : List Text} {p q d root : Text} {n : ℕ}

/-! ### Parent references and names -/

lemma landing_of_cleanSegments (hn : ∀ s ∈ names, IsName s)
    (h : cleanSegments false segs = List.replicate n (".." : Text) ++ names) :
    landing segs = names := by
  rw [landing, h, List.dropWhile_append_of_pos (by simp)]
  cases names with
  | nil => rfl
  | cons s names => simp [(hn s (by simp)).ne_parent]

lemma climbs_of_cleanSegments (hn : ∀ s ∈ names, IsName s)
    (h : cleanSegments false segs = List.replicate n (".." : Text) ++ names) :
    climbs segs = n := by
  have htake : names.takeWhile (· = (".." : Text)) = [] := by
    cases names with
    | nil => rfl
    | cons s names => simp [(hn s (by simp)).ne_parent]
  rw [climbs, h, List.takeWhile_append_of_pos (by simp), htake]
  simp

lemma foldl_pushSegment_parents (n k : ℕ) :
    (List.replicate n (".." : Text)).foldl (pushSegment false) (List.replicate k (".." : Text))
      = List.replicate (n + k) (".." : Text) := by
  have hpush : ∀ k, pushSegment false (List.replicate k (".." : Text)) (".." : Text)
      = List.replicate (k + 1) (".." : Text) := by
    intro k
    cases k with
    | zero => rfl
    | succ k =>
        have hne : (".." : Text) ≠ [] := by decide
        have hdot : (".." : Text) ≠ ("." : Text) := by decide
        simp [pushSegment, List.replicate_succ, hne, hdot]
  induction n generalizing k with
  | zero => simp
  | succ n ih =>
      rw [List.replicate_succ, List.foldl_cons, hpush, ih]
      congr 1
      omega

/-- Parent references and names after them are resolved. -/
lemma resolved_replicate_append (n : ℕ) (hn : ∀ s ∈ names, IsName s) :
    Resolved false (List.replicate n (".." : Text) ++ names) := by
  have hparents : Resolved false (List.replicate n (".." : Text)) := by
    refine ⟨fun s hs => ?_, ?_⟩
    · rw [List.eq_of_mem_replicate hs]
      decide
    · have h := foldl_pushSegment_parents n 0
      rw [List.replicate_zero, Nat.add_zero] at h
      rw [cleanSegments, h, List.reverse_replicate]
  exact hparents.append hn

/-- What resolved segments begin with is resolved. -/
lemma Resolved.of_append {front back : List Text} (h : Resolved false (front ++ back)) :
    Resolved false front := by
  obtain ⟨hform, hnames⟩ := cleanSegments_eq h.no_slash
  rw [h.clean] at hform
  rcases List.append_eq_append_iff.1 hform with ⟨rest, hparents, -⟩ | ⟨rest, hfront, hland⟩
  · obtain ⟨-, hfront, -⟩ := List.replicate_eq_append_iff.1 hparents
    rw [hfront, ← List.append_nil (List.replicate _ _)]
    exact resolved_replicate_append _ (by simp)
  · rw [hfront]
    exact resolved_replicate_append _ fun s hs => hnames s (by simp [hland, hs])

/-! ### The last segment -/

lemma takeWhile_reverse_concat {last : Text} (hl : Byte.slash ∉ last) (rest : Text) :
    (last.reverse ++ Byte.slash :: rest).takeWhile (· ≠ Byte.slash) = last.reverse := by
  rw [List.takeWhile_append_of_pos, List.takeWhile_cons_of_neg (by simp), List.append_nil]
  intro b hb
  exact decide_eq_true fun heq => hl (heq ▸ List.mem_reverse.1 hb)

lemma base_concat {last : Text} (hl : IsName last) (p : Text) :
    base (p ++ Byte.slash :: last) = last := by
  have hrev : (p ++ Byte.slash :: last).reverse = last.reverse ++ Byte.slash :: p.reverse := by
    simp
  have hdrop : (last.reverse ++ Byte.slash :: p.reverse).dropWhile (· = Byte.slash)
      = last.reverse ++ Byte.slash :: p.reverse := by
    obtain ⟨c, t, hlast⟩ := List.exists_cons_of_ne_nil
      (List.reverse_ne_nil_iff.2 hl.ne_nil)
    have hc : c ≠ Byte.slash := by
      intro heq
      refine hl.no_slash (List.mem_reverse.1 ?_)
      rw [hlast, heq]
      exact List.mem_cons_self
    rw [hlast, List.cons_append, List.dropWhile_cons_of_neg (by simpa using hc)]
  rw [base, if_neg (by simp), hrev, hdrop, takeWhile_reverse_concat hl.no_slash,
    List.reverse_reverse, if_neg hl.ne_nil]

lemma base_of_isName {last : Text} (h : IsName last) : base last = last := by
  have hall : ∀ b ∈ last.reverse, b ≠ Byte.slash := fun b hb heq =>
    h.no_slash (heq ▸ List.mem_reverse.1 hb)
  have hdrop : last.reverse.dropWhile (· = Byte.slash) = last.reverse := by
    rw [List.dropWhile_eq_self_iff]
    intro hpos
    simpa using hall _ (List.getElem_mem hpos)
  have htake : last.reverse.takeWhile (· ≠ Byte.slash) = last.reverse :=
    List.takeWhile_eq_self_iff.2 fun b hb => decide_eq_true (hall b hb)
  rw [base, if_neg h.ne_nil, hdrop, htake, List.reverse_reverse, if_neg h.ne_nil]

lemma ext_concat {last : Text} (hl : Byte.slash ∉ last) (p : Text) :
    ext (p ++ Byte.slash :: last) = ext last := by
  have hrev : (p ++ Byte.slash :: last).reverse = last.reverse ++ Byte.slash :: p.reverse := by
    simp
  have hself : last.reverse.takeWhile (· ≠ Byte.slash) = last.reverse := by
    refine List.takeWhile_eq_self_iff.2 fun b hb => ?_
    exact decide_eq_true fun heq => hl (heq ▸ List.mem_reverse.1 hb)
  rw [ext, hrev, takeWhile_reverse_concat hl, ext, hself]

/-! ### Normal forms -/

/-- What stands behind a plain directory is resolved together with it. -/
lemma normalize_plain_append (hd : IsPlain d) (q : Text) :
    normalize (d ++ Byte.slash :: q) = Text.join [Byte.slash]
      (cleanSegments false (Text.split Byte.slash d ++ Text.split Byte.slash q)) := by
  have hfirst : (Text.split Byte.slash (d ++ Byte.slash :: q)).head? ≠ some ("." : Text) := by
    intro hhead
    rw [Text.split_append, List.head?_append_of_ne_nil _ (Text.split_ne_nil Byte.slash d)] at hhead
    exact (hd.isName _ (List.mem_of_head? hhead)).ne_dot rfl
  rw [normalize_eq, trimStart_dot_of_head? hfirst, isAbsolute_append hd.ne_nil,
    isAbsolute_eq_false_of_isName hd.isName, Text.split_append]

/-- A path in normal form that goes down from a plain directory is plain. -/
lemma isPlain_of_normal_append (hd : IsPlain d)
    (h : normalize (d ++ Byte.slash :: q) = d ++ Byte.slash :: q) :
    IsPlain (d ++ Byte.slash :: q) := by
  set p := d ++ Byte.slash :: q with hp
  have hres := resolved_split_of_normal h (List.append_ne_nil_of_left_ne_nil hd.ne_nil _)
  obtain ⟨hform, hnames⟩ := cleanSegments_eq hres.no_slash
  -- the first segment is one of the directory, so nothing is climbed over
  obtain ⟨first, rest, hfirst⟩ := List.exists_cons_of_ne_nil (Text.split_ne_nil Byte.slash d)
  have hname : IsName first := hd.isName first (by simp [hfirst])
  rw [isPlain_iff]
  rw [hres.clean] at hform
  cases hc : climbs (Text.split Byte.slash p) with
  | zero =>
      rw [hc, List.replicate_zero, List.nil_append] at hform
      rwa [hform]
  | succ n =>
      rw [hc, List.replicate_succ, hp, Text.split_append, hfirst] at hform
      exact absurd (List.cons.inj hform).1 hname.ne_parent

/-- Below an absolute directory, paths in normal form that climb equally far and lead to the same
place are the same. -/
lemma eq_of_join_eq (hroot : isAbsolute root = true) (hp : normalize p = p) (hq : normalize q = q)
    (hc : climbs (Text.split Byte.slash p) = climbs (Text.split Byte.slash q))
    (h : Path.join [root, p] = Path.join [root, q]) : p = q := by
  have hs : ∀ t : Text, ∀ s ∈ Text.split Byte.slash t, Byte.slash ∉ s :=
    fun _ _ hx => no_slash_of_mem_split hx
  have hdirs : ∀ s ∈ cleanSegments true (Text.split Byte.slash root), IsName s :=
    isName_of_mem_cleanSegments (hs root)
  have hnames : ∀ (t : Text) (n : ℕ), Resolved true
      ((cleanSegments true (Text.split Byte.slash root)).rdrop n
        ++ landing (Text.split Byte.slash t)) := by
    intro t n
    refine resolved_of_isName fun s hmem => ?_
    rcases List.mem_append.1 hmem with hmem | hmem
    · exact hdirs s (List.mem_of_mem_take hmem)
    · exact isName_of_mem_landing (hs t) hmem
  rw [join_of_isAbsolute hroot, join_of_isAbsolute hroot, hc] at h
  have hsegs := congrArg (fun t => cleanSegments true (Text.split Byte.slash t)) h
  simp only [(hnames p _).cleanSegments_spell, (hnames q _).cleanSegments_spell] at hsegs
  have hland := List.append_cancel_left hsegs
  rw [← join_cleanSegments_of_normal hp, ← join_cleanSegments_of_normal hq,
    (cleanSegments_eq (hs p)).1, (cleanSegments_eq (hs q)).1, hc, hland]

/-! ### Paths by how far they climb -/

/-- The path that climbs over a number of directories and goes down by names from there. -/
def climbing (n : ℕ) (names : List Text) : Text :=
  Text.join [Byte.slash] (List.replicate n (".." : Text) ++ names)

variable {last : Text}

lemma climbing_concat (hpos : 0 < n) (names : List Text) (last : Text) :
    climbing n (names ++ [last]) = climbing n names ++ Byte.slash :: last := by
  have hne : List.replicate n (".." : Text) ++ names ≠ [] := by
    refine List.append_ne_nil_of_left_ne_nil (fun hnil => ?_) _
    rw [List.replicate_eq_nil_iff] at hnil
    omega
  rw [climbing, climbing, ← List.append_assoc, Text.join_append hne (List.cons_ne_nil _ _),
    Text.join_singleton, List.append_assoc]
  rfl

lemma split_climbing (hne : names ≠ []) (hn : ∀ s ∈ names, IsName s) :
    Text.split Byte.slash (climbing n names) = List.replicate n (".." : Text) ++ names :=
  Text.split_join (List.append_ne_nil_of_right_ne_nil _ hne)
    (resolved_replicate_append n hn).no_slash

lemma normalize_climbing (hn : ∀ s ∈ names, IsName s) :
    normalize (climbing n names) = climbing n names :=
  (resolved_replicate_append n hn).normalize_join

lemma climbing_ne_nil (hne : names ≠ []) (hn : ∀ s ∈ names, IsName s) : climbing n names ≠ [] :=
  (resolved_replicate_append n hn).spell_ne_nil (List.append_ne_nil_of_right_ne_nil _ hne)

lemma isAbsolute_climbing (hn : ∀ s ∈ names, IsName s) : isAbsolute (climbing n names) = false :=
  (resolved_replicate_append n hn).isAbsolute_spell

lemma climbs_climbing (hne : names ≠ []) (hn : ∀ s ∈ names, IsName s) :
    climbs (Text.split Byte.slash (climbing n names)) = n := by
  rw [split_climbing hne hn]
  exact climbs_of_cleanSegments hn (resolved_replicate_append n hn).clean

lemma landing_climbing (hne : names ≠ []) (hn : ∀ s ∈ names, IsName s) :
    landing (Text.split Byte.slash (climbing n names)) = names := by
  rw [split_climbing hne hn]
  exact landing_of_cleanSegments hn (resolved_replicate_append n hn).clean

lemma dir_climbing (hne : names ≠ []) (hn : ∀ s ∈ names, IsName s) (hl : Byte.slash ∉ last) :
    dir (climbing n (names ++ [last])) = climbing n names := by
  rw [climbing, ← List.append_assoc, (resolved_replicate_append n hn).dir_join hl,
    if_neg (List.append_ne_nil_of_right_ne_nil _ hne), climbing]

/-- Below a directory that is no deeper than a path climbs, the path leads to its names at the root
of the file system. -/
lemma join_climbing (hroot : isAbsolute root = true) (hne : names ≠ [])
    (hn : ∀ s ∈ names, IsName s)
    (hdepth : (cleanSegments true (Text.split Byte.slash root)).length ≤ n) :
    Path.join [root, climbing n names] = spell true names := by
  rw [join_of_isAbsolute hroot, climbs_climbing hne hn, landing_climbing hne hn, List.rdrop,
    Nat.sub_eq_zero_of_le hdepth, List.take_zero, List.nil_append]

/-- Parent references take back names, and stay where there are none left. -/
lemma foldl_pushSegment_replicate_append {kept : List Text} (hk : ∀ s ∈ kept, IsName s)
    (c n : ℕ) :
    (List.replicate c (".." : Text)).foldl (pushSegment false)
      (kept ++ List.replicate n (".." : Text))
        = kept.drop c ++ List.replicate (n + (c - kept.length)) (".." : Text) := by
  induction kept generalizing c with
  | nil => simp [foldl_pushSegment_parents, Nat.add_comm]
  | cons s kept ih =>
      cases c with
      | zero => simp
      | succ c =>
          rw [List.replicate_succ, List.foldl_cons, List.cons_append,
            pushSegment_parent (hk s (by simp)).ne_parent, ih fun s hs => hk s (by simp [hs])]
          simp

/-- A path joined with one that climbs: it takes back names, and climbs on where there are none
left. -/
lemma normalize_join_climbing (hne : names ≠ []) (hn : ∀ s ∈ names, IsName s) (path : Text) :
    normalize (Path.join [climbing n names, path])
      = climbing (n + (climbs (Text.split Byte.slash path) - names.length))
        (names.rdrop (climbs (Text.split Byte.slash path))
          ++ landing (Text.split Byte.slash path)) := by
  have hs : ∀ s ∈ Text.split Byte.slash path, Byte.slash ∉ s := fun _ h => no_slash_of_mem_split h
  have hclean := (resolved_replicate_append n hn).clean
  rw [cleanSegments, List.reverse_eq_iff, List.reverse_append, List.reverse_replicate] at hclean
  have hn' : ∀ s ∈ names.reverse, IsName s := fun s h => hn s (List.mem_reverse.1 h)
  rw [normalize_join_pair (climbing_ne_nil hne hn) (isAbsolute_climbing hn),
    split_climbing hne hn, cleanSegments, List.foldl_append, hclean,
    foldl_pushSegment_eq false _ hs, foldl_pushSegment_replicate_append hn', climbing]
  congr 1
  rw [List.reverse_append, List.reverse_append, List.reverse_reverse, List.reverse_replicate,
    List.length_reverse, List.rdrop_eq_reverse_drop_reverse, List.append_assoc]

end Path

end MiniProgram
