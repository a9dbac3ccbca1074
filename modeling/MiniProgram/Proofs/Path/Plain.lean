import MiniProgram.Proofs.Path.Relative

/-!
Plain paths: how they are put together and what keeps them plain.

* `isPlain_append_iff`: a path is plain if its parts on both sides of a slash are.
* `join_append_names`: names are put behind a joined path.
* `isPlain_normalize`: a normal form that neither is empty nor begins with `..` is plain.
* `normalize_join_of_climbs_le`: a path joined with a plain directory stays below the root if it
  climbs over no more directories than there are.
* `dir_cases`: the directory of a path that does not climb is the root or a plain path.
-/

namespace MiniProgram

namespace Path

variable {segs names : List Text} {p d path : Text}

/-! ### Parts -/

theorem isPlain_append_iff {a b : Text} :
    IsPlain (a ++ Byte.slash :: b) ↔ IsPlain a ∧ IsPlain b := by
  rw [isPlain_iff, isPlain_iff, isPlain_iff, Text.split_append, List.forall_mem_append]

lemma isPlain_of_isName_self (h : IsName p) : IsPlain p := by
  rw [isPlain_iff, Text.split_eq_singleton h.no_slash]
  simpa using h

lemma ne_dot_of_isPlain (h : IsPlain p) : p ≠ ("." : Text) := by
  rintro rfl
  exact absurd h (by decide)

/-- A plain path is a name, or a name and a plain path below it. -/
lemma isPlain_cases (h : IsPlain p) :
    IsName p ∨ ∃ s r, p = s ++ Byte.slash :: r ∧ IsName s ∧ IsPlain r := by
  have hnames := h.isName
  have hjoin := Text.join_split Byte.slash p
  cases hsplit : Text.split Byte.slash p with
  | nil => exact absurd hsplit (Text.split_ne_nil _ _)
  | cons s rest =>
      rw [hsplit] at hnames hjoin
      obtain ⟨hs, hrest⟩ := List.forall_mem_cons.1 hnames
      by_cases hne : rest = []
      · rw [hne, Text.join_singleton] at hjoin
        exact Or.inl (hjoin ▸ hs)
      · rw [Text.join_cons hne, List.append_assoc] at hjoin
        exact Or.inr ⟨s, _, hjoin.symm, hs, isPlain_join hne hrest⟩

/-! ### Normal forms -/

lemma startsWith_join_parent (rest : List Text) :
    Text.startsWith (Text.join [Byte.slash] ((".." : Text) :: rest)) ".." = true := by
  rw [Text.startsWith_iff]
  cases rest with
  | nil => exact List.prefix_rfl
  | cons s rest =>
      rw [Text.join_cons (List.cons_ne_nil s rest), List.append_assoc]
      exact List.prefix_append _ _

/-- Resolved segments whose spelling does not begin with `..` are names. -/
lemma Resolved.isName_of_startsWith (h : Resolved false segs)
    (hstart : Text.startsWith (Text.join [Byte.slash] segs) ".." = false) :
    ∀ s ∈ segs, IsName s := by
  obtain ⟨hform, hnames⟩ := cleanSegments_eq h.no_slash
  rw [h.clean] at hform
  cases hc : climbs segs with
  | zero =>
      rw [hc, List.replicate_zero, List.nil_append] at hform
      rwa [← hform] at hnames
  | succ n =>
      rw [hc, List.replicate_succ, List.cons_append] at hform
      rw [hform, startsWith_join_parent] at hstart
      cases hstart

/-- A normal form that neither is empty nor begins with `..` is plain. -/
theorem isPlain_normalize (hne : normalize p ≠ [])
    (hstart : Text.startsWith (normalize p) ".." = false) : IsPlain (normalize p) := by
  have hres := resolved_cleanSegments (isAbsolute (Text.trimStart p "./"))
    fun x hx => no_slash_of_mem_split (p := Text.trimStart p "./") hx
  rw [normalize_eq] at hne hstart ⊢
  set segs := cleanSegments (isAbsolute (Text.trimStart p "./"))
    (Text.split Byte.slash (Text.trimStart p "./"))
  have hnames : ∀ s ∈ segs, IsName s := by
    cases hroot : isAbsolute (Text.trimStart p "./") with
    | true => exact (hroot ▸ hres).isName
    | false => exact (hroot ▸ hres).isName_of_startsWith hstart
  refine isPlain_join (fun hnil => hne ?_) hnames
  rw [hnil]
  rfl

/-! ### Joining -/

lemma join_triple {a : Text} (ha : a ≠ []) (b c : Text) :
    Path.join [a, b, c] = Path.join [a, b ++ Byte.slash :: c] := by
  simp [Path.join, ha, slash_text, Text.join]

/-- Names behind a path follow its resolved segments. -/
lemma join_names {a : Text} (ha : a ≠ []) (hne : names ≠ []) (hn : ∀ s ∈ names, IsName s) :
    Path.join (a :: names)
      = spell (isAbsolute a) (cleanSegments (isAbsolute a) (Text.split Byte.slash a) ++ names) := by
  have hpair : Path.join (a :: names) = Path.join [a, Text.join [Byte.slash] names] := by
    rw [join_pair ha]
    simp [Path.join, ha, slash_text, Text.join_cons hne]
  have hsplit := Text.split_join hne fun s hs => (hn s hs).no_slash
  rw [hpair, join_eq_spell ha, hsplit, cleanSegments_append_of_isName hn]
  rw [hsplit, cleanSegments_append_of_isName hn]
  exact Or.inr (List.append_ne_nil_of_right_ne_nil _ hne)

/-- More names are put behind a joined path. -/
theorem join_append_names {a : Text} {rest : List Text} (ha : a ≠ []) (hne : names ≠ [])
    (hrest : rest ≠ []) (hn : ∀ s ∈ names, IsName s) (hr : ∀ s ∈ rest, IsName s) :
    Path.join (a :: (names ++ rest))
      = Path.join (a :: names) ++ Byte.slash :: Text.join [Byte.slash] rest := by
  rw [join_names ha (List.append_ne_nil_of_left_ne_nil hne _) (List.forall_mem_append.2 ⟨hn, hr⟩),
    join_names ha hne hn, ← List.append_assoc, spell, spell,
    Text.join_append (List.append_ne_nil_of_right_ne_nil _ hne) hrest]
  split_ifs <;> simp

/-- The bytes of a path with names behind it. -/
lemma mem_of_mem_join_names {a : Text} {b : UInt8} (ha : a ≠ []) (hne : names ≠ [])
    (hn : ∀ s ∈ names, IsName s) (hb : b ∈ Path.join (a :: names)) :
    b ∈ a ∨ b = Byte.slash ∨ ∃ s ∈ names, b ∈ s := by
  rw [join_names ha hne hn, spell] at hb
  have hjoin : b = Byte.slash ∨ b ∈ Text.join [Byte.slash]
      (cleanSegments (isAbsolute a) (Text.split Byte.slash a) ++ names) := by
    split_ifs at hb
    · exact List.mem_cons.1 hb
    · exact Or.inr hb
  rcases hjoin with hslash | hjoin
  · exact Or.inr (Or.inl hslash)
  · rcases Text.eq_or_exists_of_mem_join hjoin with hslash | ⟨s, hs, hbs⟩
    · exact Or.inr (Or.inl hslash)
    · rcases List.mem_append.1 hs with hs | hs
      · exact Or.inl (Text.mem_of_mem_split (mem_of_mem_cleanSegments hs) hbs)
      · exact Or.inr (Or.inr ⟨s, hs, hbs⟩)

/-- Parent references take names off a stack that holds enough of them, rooted or not. -/
lemma foldl_pushSegment_replicate_le {rooted : Bool} {kept : List Text}
    (hk : ∀ x ∈ kept, IsName x) {n : ℕ} (hn : n ≤ kept.length) :
    (List.replicate n (".." : Text)).foldl (pushSegment rooted) kept = kept.drop n := by
  induction n generalizing kept with
  | zero => rfl
  | succ n ih =>
      cases kept with
      | nil => simp at hn
      | cons last kept =>
          rw [List.replicate_succ, List.foldl_cons,
            pushSegment_parent (hk last (by simp)).ne_parent, List.drop_succ_cons]
          exact ih (fun x hx => hk x (by simp [hx])) (by simpa using hn)

/-- After enough names, segments take off the names they climb over and go down from there. -/
lemma cleanSegments_append_names (hn : ∀ s ∈ names, IsName s) (hs : ∀ s ∈ segs, Byte.slash ∉ s)
    (hc : climbs segs ≤ names.length) :
    cleanSegments false (names ++ segs) = names.rdrop (climbs segs) ++ landing segs := by
  have hn' : ∀ s ∈ names.reverse, IsName s := fun s h => hn s (List.mem_reverse.1 h)
  rw [cleanSegments, List.foldl_append, foldl_pushSegment_of_isName hn, List.append_nil,
    foldl_pushSegment_eq false _ hs, foldl_pushSegment_replicate_le hn' (by simpa using hc),
    List.reverse_append, List.reverse_reverse, List.rdrop_eq_reverse_drop_reverse]

/-- Resolved segments without a root spell a normal form. -/
lemma Resolved.normalize_join (h : Resolved false segs) :
    normalize (Text.join [Byte.slash] segs) = Text.join [Byte.slash] segs := by
  by_cases hne : segs = []
  · subst hne
    rfl
  · have hrel : isAbsolute (Text.join [Byte.slash] segs) = false := h.isAbsolute_spell
    rw [normalize_eq, cleanSegments_trimStart_dot, isAbsolute_trimStart_dot, hrel,
      startsWith_dot_join h, Bool.or_false, Text.split_join hne h.no_slash, h.clean]

/-- The normal form of two joined paths, the first of which is relative. -/
lemma normalize_join_pair (hne : d ≠ []) (habs : isAbsolute d = false) (path : Text) :
    normalize (Path.join [d, path]) = Text.join [Byte.slash]
      (cleanSegments false (Text.split Byte.slash d ++ Text.split Byte.slash path)) := by
  have hres := resolved_cleanSegments false fun x hx =>
    no_slash_of_mem_append (a := d) (b := path) hx
  by_cases hnil : cleanSegments false (Text.split Byte.slash d ++ Text.split Byte.slash path) = []
  · have hdot : Path.join [d, path] = ("." : Text) := by
      rw [join_pair hne, clean, isAbsolute_append hne, habs, Text.split_append, hnil]
      rfl
    rw [hdot, hnil]
    rfl
  · rw [join_eq_spell hne (Or.inr hnil), habs]
    exact hres.normalize_join

/-- A path that climbs over no more than the names of a plain directory leads to names below the
root, and to at least one if it climbs over fewer. -/
theorem normalize_join_of_climbs_le (hd : IsPlain d)
    (hc : climbs (Text.split Byte.slash path) ≤ (Text.split Byte.slash d).length) :
    ∃ names : List Text, (∀ s ∈ names, IsName s)
      ∧ normalize (Path.join [d, path]) = Text.join [Byte.slash] names
      ∧ (climbs (Text.split Byte.slash path) < (Text.split Byte.slash d).length → names ≠ []) := by
  have hs : ∀ s ∈ Text.split Byte.slash path, Byte.slash ∉ s := fun _ h => no_slash_of_mem_split h
  refine ⟨(Text.split Byte.slash d).rdrop (climbs (Text.split Byte.slash path))
    ++ landing (Text.split Byte.slash path), ?_, ?_, fun hlt => ?_⟩
  · intro s h
    rcases List.mem_append.1 h with h | h
    · exact hd.isName s (List.mem_of_mem_take h)
    · exact isName_of_mem_landing hs h
  · rw [normalize_join_pair hd.ne_nil (isAbsolute_eq_false_of_isName hd.isName),
      cleanSegments_append_names hd.isName hs hc]
  · refine List.append_ne_nil_of_left_ne_nil (fun hnil => ?_) _
    have hlen := congrArg List.length hnil
    rw [List.rdrop, List.length_take, List.length_nil] at hlen
    omega

/-- The directory of a path that does not climb is the root or a plain path. -/
lemma dir_cases (hn : normalize p = p) (hp : (".." : Text) ∉ Text.split Byte.slash p) :
    dir p = ("." : Text) ∨ IsPlain (dir p) := by
  by_cases hne : p = []
  · subst hne
    exact Or.inl rfl
  have hplain : IsPlain p := ⟨hne, hn, hp⟩
  obtain ⟨dirs, last, hsplit⟩ : ∃ dirs last, Text.split Byte.slash p = dirs ++ [last] :=
    ⟨_, _, (List.dropLast_append_getLast (Text.split_ne_nil Byte.slash p)).symm⟩
  have hnames := hplain.isName
  rw [hsplit] at hnames
  have hd : ∀ s ∈ dirs, IsName s := fun s h => hnames s (by simp [h])
  have hpath : p = Text.join [Byte.slash] (dirs ++ [last]) := by rw [← hsplit, Text.join_split]
  rw [hpath, dir_join hd (hnames last (by simp)).no_slash]
  split_ifs with hnil
  · exact Or.inl rfl
  · exact Or.inr (isPlain_join hnil hd)

end Path

end MiniProgram
