import MiniProgram.Proofs.Path.Segments

/-!
Paths through their segments.

A cleaned path is spelled by its segments (`spell`), with a slash in front if it is rooted; the
segments are `Resolved`, that is, resolving them changes nothing.

* `clean_eq_spell`, `join_eq_spell`: cleaning a path and joining two paths give the spelling of
  resolved segments.
* `join_of_isAbsolute`: below an absolute path, a second path leaves as many directories as it
  climbs and goes down by the names it lands at.
* `strictlyBelow_spell_iff`: a path lies strictly below a rooted directory if its names continue
  those of the directory.
* `normalize_eq`: the normal form of a path is the spelling of its segments without a root, except
  that behind a leading `./` a further slash makes them rooted.
* `join_cleanSegments_of_normal`, `resolved_split_of_normal`: a path in normal form is spelled by
  its resolved segments, which are its segments.
* `isPlain_iff`: the non-empty normal paths without parent references are the sequences of names.
-/

namespace MiniProgram

namespace Path

variable {rooted : Bool} {segs : List Text} {p : Text}

lemma slash_text : (("/" : String) : Text) = [Byte.slash] := rfl

lemma no_slash_of_mem_split {s : Text} (h : s ∈ Text.split Byte.slash p) : Byte.slash ∉ s :=
  Text.not_mem_of_mem_split h

/-! ### Spelling segments -/

/-- The text of a path with the given segments. -/
def spell (rooted : Bool) (segs : List Text) : Text :=
  if rooted then Byte.slash :: Text.join [Byte.slash] segs else Text.join [Byte.slash] segs

/-- Segments that are resolved: none is empty or `.`, and no `..` can be taken back. -/
structure Resolved (rooted : Bool) (segs : List Text) : Prop where
  no_slash : ∀ s ∈ segs, Byte.slash ∉ s
  clean : cleanSegments rooted segs = segs

/-- A resolved segment is a parent reference, on a path without a root, or a name. -/
lemma eq_parent_or_isName_of_mem (hs : ∀ x ∈ segs, Byte.slash ∉ x) {x : Text}
    (hx : x ∈ cleanSegments rooted segs) :
    (rooted = false ∧ x = (".." : Text)) ∨ IsName x := by
  cases rooted with
  | false =>
      have hset := settled_reverse_cleanSegments hs
      rcases hset.eq_parent_or_isName (List.mem_reverse.2 hx) with h | h
      · exact Or.inl ⟨rfl, h⟩
      · exact Or.inr h
  | true =>
      rw [cleanSegments, List.mem_reverse] at hx
      exact Or.inr (foldl_pushSegment_isName (by simp) hs x hx)

lemma resolved_cleanSegments (rooted : Bool) (hs : ∀ x ∈ segs, Byte.slash ∉ x) :
    Resolved rooted (cleanSegments rooted segs) := by
  refine ⟨fun x hx => ?_, cleanSegments_idem rooted hs⟩
  rcases eq_parent_or_isName_of_mem hs hx with ⟨-, rfl⟩ | h
  · decide
  · exact h.no_slash

lemma resolved_of_isName (h : ∀ x ∈ segs, IsName x) : Resolved rooted segs := by
  refine ⟨fun x hx => (h x hx).no_slash, ?_⟩
  rw [cleanSegments, foldl_pushSegment_of_isName h]
  simp

lemma Resolved.isName (h : Resolved true segs) : ∀ x ∈ segs, IsName x := by
  intro x hx
  rw [← h.clean] at hx
  simpa using eq_parent_or_isName_of_mem h.no_slash hx

lemma Resolved.ne_nil (h : Resolved rooted segs) {x : Text} (hx : x ∈ segs) : x ≠ [] := by
  rw [← h.clean] at hx
  rcases eq_parent_or_isName_of_mem h.no_slash hx with ⟨-, rfl⟩ | hname
  · decide
  · exact hname.ne_nil

/-- Names may follow resolved segments. -/
lemma Resolved.append (h : Resolved rooted segs) {names : List Text} (hn : ∀ x ∈ names, IsName x) :
    Resolved rooted (segs ++ names) := by
  refine ⟨fun x hx => ?_, ?_⟩
  · rcases List.mem_append.1 hx with hx | hx
    · exact h.no_slash x hx
    · exact (hn x hx).no_slash
  · rw [cleanSegments_append_of_isName hn, h.clean]

lemma isAbsolute_join (h : ∀ x ∈ segs, Byte.slash ∉ x ∧ x ≠ []) :
    isAbsolute (Text.join [Byte.slash] segs) = false := by
  cases segs with
  | nil => rfl
  | cons s rest =>
      obtain ⟨hslash, hne⟩ := h s (by simp)
      cases s with
      | nil => exact absurd rfl hne
      | cons b s =>
          have hb : b ≠ Byte.slash := fun hb => hslash (by simp [hb])
          simp [isAbsolute, Text.head?_join, hb]

lemma Resolved.isAbsolute_spell (h : Resolved rooted segs) :
    isAbsolute (spell rooted segs) = rooted := by
  cases rooted with
  | true => rfl
  | false => exact isAbsolute_join fun x hx => ⟨h.no_slash x hx, h.ne_nil hx⟩

lemma Resolved.spell_ne_nil (h : Resolved rooted segs) (hne : segs ≠ []) :
    spell rooted segs ≠ [] := by
  cases rooted with
  | true => exact List.cons_ne_nil _ _
  | false => exact fun hj => hne ((Text.join_eq_nil_iff fun s hs => h.ne_nil hs).1 hj)

/-- The segments of a spelled path act like the segments it is spelled by. -/
lemma foldl_split_spell (hs : ∀ x ∈ segs, Byte.slash ∉ x) (rooted' : Bool) (kept : List Text) :
    (Text.split Byte.slash (spell rooted segs)).foldl (pushSegment rooted') kept
      = segs.foldl (pushSegment rooted') kept := by
  have hjoin : (Text.split Byte.slash (Text.join [Byte.slash] segs)).foldl
      (pushSegment rooted') kept = segs.foldl (pushSegment rooted') kept := by
    by_cases hne : segs = []
    · subst hne
      rfl
    · rw [Text.split_join hne hs]
  cases rooted with
  | false => exact hjoin
  | true => simpa [spell] using hjoin

/-! ### Cleaning -/

/-- A cleaned path is spelled by its resolved segments; only the empty path without a root has a
spelling of its own. -/
lemma clean_eq_spell
    (h : isAbsolute p = true ∨ cleanSegments false (Text.split Byte.slash p) ≠ []) :
    clean p = spell (isAbsolute p) (cleanSegments (isAbsolute p) (Text.split Byte.slash p)) := by
  rw [clean, spell, slash_text]
  cases ha : isAbsolute p with
  | true => rfl
  | false =>
      rw [ha] at h
      have hne := h.resolve_left (by simp)
      simp [hne]

lemma Resolved.clean_spell (h : Resolved rooted segs) (hne : rooted = true ∨ segs ≠ []) :
    Path.clean (spell rooted segs) = spell rooted segs := by
  have hsegs : cleanSegments rooted (Text.split Byte.slash (spell rooted segs)) = segs := by
    rw [cleanSegments, foldl_split_spell h.no_slash, ← cleanSegments, h.clean]
  rw [clean_eq_spell, h.isAbsolute_spell, hsegs]
  rw [h.isAbsolute_spell]
  rcases hne with rfl | hne
  · exact Or.inl rfl
  · cases rooted with
    | true => exact Or.inl rfl
    | false =>
        rw [hsegs]
        exact Or.inr hne

/-- A cleaned path is `.` or the spelling of resolved segments. -/
lemma clean_cases (p : Text) :
    isAbsolute p = false ∧ clean p = ("." : Text)
      ∨ ∃ segs, Resolved (isAbsolute p) segs ∧ (isAbsolute p = true ∨ segs ≠ [])
        ∧ clean p = spell (isAbsolute p) segs := by
  by_cases h : isAbsolute p = true ∨ cleanSegments false (Text.split Byte.slash p) ≠ []
  · refine Or.inr ⟨_, resolved_cleanSegments _ fun x hx => no_slash_of_mem_split hx, ?_,
      clean_eq_spell h⟩
    cases habs : isAbsolute p with
    | true => exact Or.inl rfl
    | false => exact Or.inr (h.resolve_left (by simp [habs]))
  · obtain ⟨habs, hnil⟩ := not_or.1 h
    refine Or.inl ⟨eq_false_of_ne_true habs, ?_⟩
    rw [clean, eq_false_of_ne_true habs, not_not.1 hnil]
    rfl

/-- Cleaning a path once more changes nothing. -/
lemma clean_clean (p : Text) : clean (clean p) = clean p := by
  rcases clean_cases p with ⟨-, hdot⟩ | ⟨segs, hres, hne, hspell⟩
  · rw [hdot]
    decide
  · rw [hspell, hres.clean_spell hne]

/-- Cleaning a path keeps the root in front of it, and puts none there. -/
lemma isAbsolute_clean (p : Text) : isAbsolute (clean p) = isAbsolute p := by
  rcases clean_cases p with ⟨habs, hdot⟩ | ⟨segs, hres, -, hspell⟩
  · rw [hdot, habs]
    rfl
  · rw [hspell, hres.isAbsolute_spell]

/-! ### Joining -/

lemma join_pair {a : Text} (ha : a ≠ []) (b : Text) :
    Path.join [a, b] = Path.clean (a ++ Byte.slash :: b) := by
  simp [Path.join, ha, slash_text, Text.join]

lemma isAbsolute_append {a : Text} (ha : a ≠ []) (b : Text) :
    isAbsolute (a ++ b) = isAbsolute a := by
  cases a with
  | nil => exact absurd rfl ha
  | cons c a => rfl

/-- Joining two paths resolves the segments of the second after those of the first. -/
lemma join_eq_spell {a b : Text} (ha : a ≠ [])
    (h : isAbsolute a = true
      ∨ cleanSegments false (Text.split Byte.slash a ++ Text.split Byte.slash b) ≠ []) :
    Path.join [a, b] = spell (isAbsolute a)
      (cleanSegments (isAbsolute a) (Text.split Byte.slash a ++ Text.split Byte.slash b)) := by
  have habs := isAbsolute_append ha (Byte.slash :: b)
  have hsplit := Text.split_append Byte.slash a b
  rw [join_pair ha, clean_eq_spell, habs, hsplit]
  rw [habs, hsplit]
  exact h

lemma no_slash_of_mem_append {a b s : Text}
    (h : s ∈ Text.split Byte.slash a ++ Text.split Byte.slash b) : Byte.slash ∉ s := by
  rcases List.mem_append.1 h with h | h
  · exact no_slash_of_mem_split h
  · exact no_slash_of_mem_split h

/-- The segments of an absolute path are names once they are resolved. -/
lemma isName_of_mem_cleanSegments (hs : ∀ x ∈ segs, Byte.slash ∉ x) :
    ∀ x ∈ cleanSegments true segs, IsName x := fun x hx => by
  simpa using eq_parent_or_isName_of_mem hs hx

/-- Segments after others, below the root. -/
lemma cleanSegments_append_rooted {front : List Text} (hf : ∀ x ∈ front, Byte.slash ∉ x)
    (hs : ∀ x ∈ segs, Byte.slash ∉ x) :
    cleanSegments true (front ++ segs)
      = (cleanSegments true front).rdrop (climbs segs) ++ landing segs := by
  have hk : ∀ x ∈ front.foldl (pushSegment true) [], IsName x :=
    foldl_pushSegment_isName (by simp) hf
  rw [cleanSegments, List.foldl_append, foldl_pushSegment_names hk hs, List.reverse_append,
    List.reverse_reverse, List.rdrop_eq_reverse_drop_reverse, cleanSegments, List.reverse_reverse]

/-- Segments after others end in the names they land at. -/
lemma exists_cleanSegments_append (rooted : Bool) (front : List Text)
    (hs : ∀ x ∈ segs, Byte.slash ∉ x) :
    ∃ dirs, cleanSegments rooted (front ++ segs) = dirs ++ landing segs := by
  refine ⟨((List.replicate (climbs segs) (".." : Text)).foldl (pushSegment rooted)
    (front.foldl (pushSegment rooted) [])).reverse, ?_⟩
  rw [cleanSegments, List.foldl_append, foldl_pushSegment_eq rooted _ hs, List.reverse_append,
    List.reverse_reverse]

/-- Below an absolute path, a second path leaves as many directories as it climbs and goes down by
the names it lands at. -/
theorem join_of_isAbsolute {a : Text} (ha : isAbsolute a = true) (b : Text) :
    Path.join [a, b] = spell true
      ((cleanSegments true (Text.split Byte.slash a)).rdrop (climbs (Text.split Byte.slash b))
        ++ landing (Text.split Byte.slash b)) := by
  have hne : a ≠ [] := by
    rintro rfl
    simp [isAbsolute] at ha
  rw [join_eq_spell hne (Or.inl ha), ha, cleanSegments_append_rooted
    (fun x hx => no_slash_of_mem_split hx) fun x hx => no_slash_of_mem_split hx]

/-! ### Position -/

/-- Whether a path lies strictly below a directory: it continues the directory by something. -/
def StrictlyBelow (top p : Text) : Prop :=
  ∃ rest, rest ≠ [] ∧ p = (if top = ("/" : Text) then top else top ++ "/") ++ rest

/-- Below a rooted directory lie the paths whose names continue its names. -/
theorem strictlyBelow_spell_iff {dirs names : List Text} (hd : ∀ s ∈ dirs, IsName s)
    (hn : ∀ s ∈ names, IsName s) :
    StrictlyBelow (spell true dirs) (spell true names)
      ↔ ∃ rest, rest ≠ [] ∧ names = dirs ++ rest := by
  have hnil : Text.join [Byte.slash] names = [] ↔ names = [] :=
    Text.join_eq_nil_iff fun s hs => (hn s hs).ne_nil
  -- the root is spelled with the slash that other directories are followed by
  by_cases hne : dirs = []
  · subst hne
    have htop : spell true [] = ("/" : Text) := rfl
    simp only [StrictlyBelow, htop, if_true, List.nil_append]
    constructor
    · rintro ⟨rest, hrest, heq⟩
      have hjoin : Text.join [Byte.slash] names = rest := List.cons_injective heq
      exact ⟨names, fun h => hrest (by rw [← hjoin, hnil.2 h]), rfl⟩
    · rintro ⟨rest, hrest, rfl⟩
      exact ⟨Text.join [Byte.slash] names, fun h => hrest (hnil.1 h), rfl⟩
  · have hdirs : Text.join [Byte.slash] dirs ≠ [] := fun h =>
      hne ((Text.join_eq_nil_iff fun s hs => (hd s hs).ne_nil).1 h)
    have htop : spell true dirs ≠ ("/" : Text) := fun h => hdirs (List.cons_injective h)
    have hlead : (if spell true dirs = ("/" : Text) then spell true dirs
        else spell true dirs ++ "/") = spell true dirs ++ [Byte.slash] := if_neg htop
    simp only [StrictlyBelow, hlead]
    constructor
    · rintro ⟨rest, -, heq⟩
      have hjoin : Text.join [Byte.slash] names
          = Text.join [Byte.slash] dirs ++ Byte.slash :: rest := by
        simpa [spell] using heq
      have hnames : names ≠ [] := by
        rintro rfl
        simp at hjoin
      refine ⟨Text.split Byte.slash rest, Text.split_ne_nil _ _, ?_⟩
      rw [← Text.split_join hnames fun s hs => (hn s hs).no_slash, hjoin, Text.split_append,
        Text.split_join hne fun s hs => (hd s hs).no_slash]
    · rintro ⟨rest, hrest, rfl⟩
      have hrest' : Text.join [Byte.slash] rest ≠ [] := fun h =>
        hrest ((Text.join_eq_nil_iff fun s hs => (hn s (by simp [hs])).ne_nil).1 h)
      exact ⟨Text.join [Byte.slash] rest, hrest', by simp [spell, Text.join_append hne hrest]⟩

/-! ### The first segment -/

/-- A path begins with a segment if that is the whole path or a slash follows it. -/
lemma head?_split_eq_some_iff {d : Text} (hd : Byte.slash ∉ d) :
    (Text.split Byte.slash p).head? = some d
      ↔ p = d ∨ Text.startsWith p (d ++ [Byte.slash]) = true := by
  rw [Text.startsWith_iff]
  constructor
  · intro hhead
    obtain ⟨rest, hsplit⟩ := List.head?_eq_some_iff.1 hhead
    have hp : p = Text.join [Byte.slash] (d :: rest) := by rw [← hsplit, Text.join_split]
    by_cases hne : rest = []
    · rw [hne, Text.join_singleton] at hp
      exact Or.inl hp
    · rw [hp, Text.join_cons hne]
      exact Or.inr (List.prefix_append _ _)
  · rintro (rfl | ⟨t, rfl⟩)
    · rw [Text.split_eq_singleton hd, List.head?_cons]
    · rw [List.append_assoc, List.singleton_append, Text.split_append, Text.split_eq_singleton hd]
      rfl

lemma trimStart_dot_of_head? (h : (Text.split Byte.slash p).head? ≠ some ("." : Text)) :
    Text.trimStart p "./" = p :=
  Text.trimStart_eq_self fun hdot =>
    h ((head?_split_eq_some_iff (by decide)).2 (Or.inr (Text.startsWith_iff.2 hdot)))

/-! ### Normal forms -/

/-- A `./` in front makes no difference to the resolved segments. -/
lemma cleanSegments_trimStart_dot (rooted : Bool) (p : Text) :
    cleanSegments rooted (Text.split Byte.slash (Text.trimStart p "./"))
      = cleanSegments rooted (Text.split Byte.slash p) := by
  by_cases hdot : ("./" : Text) <+: p
  · obtain ⟨q, rfl⟩ := hdot
    have h : ("./" : Text) ++ q = ("." : Text) ++ Byte.slash :: q := rfl
    have hdot : Text.split Byte.slash ("." : Text) = [("." : Text)] := by decide
    rw [Text.trimStart_append, h, Text.split_append, hdot]
    simp [cleanSegments]
  · rw [Text.trimStart_eq_self hdot]

/-- Taking `./` off leaves a root only if there was one before or two slashes follow the dot. -/
lemma isAbsolute_trimStart_dot (p : Text) :
    isAbsolute (Text.trimStart p "./") = (isAbsolute p || Text.startsWith p ".//") := by
  by_cases hdot : ("./" : Text) <+: p
  · obtain ⟨q, rfl⟩ := hdot
    rw [Text.trimStart_append]
    cases q with
    | nil => rfl
    | cons b q =>
        rw [Bool.eq_iff_iff, Bool.or_eq_true, Text.startsWith_iff]
        have hrel : isAbsolute (("./" : Text) ++ b :: q) = false := rfl
        have hsplit : (".//" : Text) = ("./" : Text) ++ [Byte.slash] := rfl
        rw [hrel, hsplit, List.prefix_append_right_inj, List.cons_prefix_cons]
        simp [isAbsolute, eq_comm (a := b)]
  · have hstart : Text.startsWith p ".//" = false := by
      rw [← Bool.not_eq_true, Text.startsWith_iff]
      rintro ⟨q, rfl⟩
      exact hdot ⟨Byte.slash :: q, rfl⟩
    rw [Text.trimStart_eq_self hdot, hstart, Bool.or_false]

lemma join_ne_dot (h : Resolved rooted segs) :
    Text.join [Byte.slash] segs ≠ ("." : Text) := by
  intro hj
  have hne : segs ≠ [] := by
    rintro rfl
    exact absurd hj (by decide)
  have hsplit := Text.split_join hne h.no_slash
  rw [hj, Text.split_eq_singleton (by decide)] at hsplit
  have hdot := h.clean
  rw [← hsplit] at hdot
  cases rooted with
  | false => exact absurd hdot (by decide)
  | true => exact absurd hdot (by decide)

/-- The normal form of a path: its segments are resolved after a leading `./` was taken off, with a
root if a slash is left in front. -/
theorem normalize_eq (p : Text) :
    normalize p = Text.join [Byte.slash] (cleanSegments (isAbsolute (Text.trimStart p "./"))
      (Text.split Byte.slash (Text.trimStart p "./"))) := by
  by_cases hp : p = []
  · subst hp
    rfl
  set q := Text.trimStart p "./" with hq
  have hres := resolved_cleanSegments (isAbsolute q) fun x hx => no_slash_of_mem_split (p := q) hx
  rw [normalize, if_neg hp, ← hq]
  have htrim : ∀ t : Text, isAbsolute t = false → Text.trimStart t "/" = t := by
    intro t ht
    refine Text.trimStart_eq_self fun ⟨r, hr⟩ => ?_
    rw [← hr, slash_text] at ht
    exact absurd ht (by simp [isAbsolute])
  by_cases hc : isAbsolute q = true ∨ cleanSegments false (Text.split Byte.slash q) ≠ []
  · have hstart : Text.trimStart (clean q) "/" = Text.join [Byte.slash]
        (cleanSegments (isAbsolute q) (Text.split Byte.slash q)) := by
      rw [clean_eq_spell hc]
      cases ha : isAbsolute q with
      | true => exact Text.trimStart_append [Byte.slash] _
      | false =>
          rw [ha] at hres
          exact htrim _ hres.isAbsolute_spell
    simp only [hstart, if_neg (join_ne_dot hres)]
  · -- nothing is left of the path: it is the directory it starts from
    obtain ⟨ha, hnil⟩ := not_or.1 hc
    have ha : isAbsolute q = false := eq_false_of_ne_true ha
    have hnil : cleanSegments false (Text.split Byte.slash q) = [] := not_not.1 hnil
    have hdot : clean q = ("." : Text) := by simp [clean, ha, hnil]
    rw [hdot, ha, hnil]
    rfl

lemma startsWith_dot_join (h : Resolved rooted segs) :
    Text.startsWith (Text.join [Byte.slash] segs) ".//" = false := by
  rw [← Bool.not_eq_true, Text.startsWith_iff]
  rintro ⟨rest, hrest⟩
  have hne : segs ≠ [] := by
    rintro rfl
    cases hrest
  have hdot : ("." : Text) ∈ segs := by
    have hcons : (".//" : Text) ++ rest = ("." : Text) ++ Byte.slash :: Byte.slash :: rest := rfl
    rw [← Text.split_join hne h.no_slash, ← hrest, hcons, Text.split_append]
    exact List.mem_append_left _ (by decide)
  rw [← h.clean] at hdot
  rcases eq_parent_or_isName_of_mem h.no_slash hdot with ⟨-, heq⟩ | hname
  · exact absurd heq (by decide)
  · exact hname.ne_dot rfl

/-- The normal form of a path is in normal form. -/
theorem normalize_idem (p : Text) : normalize (normalize p) = normalize p := by
  have hres := resolved_cleanSegments (isAbsolute (Text.trimStart p "./"))
    fun x hx => no_slash_of_mem_split (p := Text.trimStart p "./") hx
  rw [normalize_eq p]
  set segs := cleanSegments (isAbsolute (Text.trimStart p "./"))
    (Text.split Byte.slash (Text.trimStart p "./"))
  by_cases hne : segs = []
  · rw [hne]
    rfl
  have hrel : isAbsolute (Text.join [Byte.slash] segs) = false :=
    isAbsolute_join fun x hx => ⟨hres.no_slash x hx, hres.ne_nil hx⟩
  have hclean : cleanSegments false segs = segs := by
    cases ha : isAbsolute (Text.trimStart p "./") with
    | false => exact ha ▸ hres.clean
    | true => exact (resolved_of_isName (ha ▸ hres).isName).clean
  rw [normalize_eq, cleanSegments_trimStart_dot, isAbsolute_trimStart_dot, hrel,
    startsWith_dot_join hres, Bool.or_false, Text.split_join hne hres.no_slash, hclean]

/-- Resolved segments are found again in their spelling. -/
lemma Resolved.cleanSegments_spell {rooted : Bool} (h : Resolved rooted segs) :
    cleanSegments rooted (Text.split Byte.slash (spell rooted segs)) = segs := by
  rw [cleanSegments, foldl_split_spell h.no_slash, ← cleanSegments, h.clean]

/-- A path in normal form is spelled by its resolved segments. -/
lemma join_cleanSegments_of_normal (h : normalize p = p) :
    Text.join [Byte.slash] (cleanSegments false (Text.split Byte.slash p)) = p := by
  set q := Text.trimStart p "./" with hq
  have hres := resolved_cleanSegments (isAbsolute q) fun x hx => no_slash_of_mem_split (p := q) hx
  rw [normalize_eq, ← hq] at h
  have hfalse : Resolved false (cleanSegments (isAbsolute q) (Text.split Byte.slash q)) := by
    cases habs : isAbsolute q with
    | true => exact resolved_of_isName (habs ▸ hres).isName
    | false => exact habs ▸ hres
  have hsame := hfalse.cleanSegments_spell
  rw [spell, if_neg (by simp), h] at hsame
  rw [hsame, h]

/-- The segments of a path in normal form are resolved, the root having none. -/
lemma resolved_split_of_normal (h : normalize p = p) (hne : p ≠ []) :
    Resolved false (Text.split Byte.slash p) := by
  have hres := resolved_cleanSegments false fun x hx => no_slash_of_mem_split (p := p) hx
  have hjoin := join_cleanSegments_of_normal h
  have hnil : cleanSegments false (Text.split Byte.slash p) ≠ [] := by
    intro hnil
    rw [hnil] at hjoin
    exact hne hjoin.symm
  have hsplit := Text.split_join hnil hres.no_slash
  rw [hjoin] at hsplit
  rwa [← hsplit] at hres

/-! ### Plain paths -/

/-- A plain path: it is in normal form, does not stand for the root and does not climb above it. -/
structure IsPlain (p : Text) : Prop where
  ne_nil : p ≠ []
  normal : normalize p = p
  no_parent : (".." : Text) ∉ Text.split Byte.slash p

instance (p : Text) : Decidable (IsPlain p) :=
  decidable_of_iff (p ≠ [] ∧ normalize p = p ∧ ∀ s ∈ Text.split Byte.slash p, s ≠ "..")
    ⟨fun h => ⟨h.1, h.2.1, fun hmem => h.2.2 _ hmem rfl⟩,
      fun h => ⟨h.ne_nil, h.normal, fun _ hs hparent => h.no_parent (hparent ▸ hs)⟩⟩

lemma IsPlain.isName (h : IsPlain p) : ∀ s ∈ Text.split Byte.slash p, IsName s := by
  have hres := resolved_split_of_normal h.normal h.ne_nil
  intro s hs
  have hmem := hs
  rw [← hres.clean] at hmem
  rcases eq_parent_or_isName_of_mem hres.no_slash hmem with ⟨-, rfl⟩ | hn
  · exact absurd hs h.no_parent
  · exact hn

lemma isAbsolute_eq_false_of_isName (h : ∀ s ∈ Text.split Byte.slash p, IsName s) :
    isAbsolute p = false := by
  rw [← Text.join_split Byte.slash p]
  exact isAbsolute_join fun x hx => ⟨(h x hx).no_slash, (h x hx).ne_nil⟩

lemma trimStart_eq_self_of_isName (h : ∀ s ∈ Text.split Byte.slash p, IsName s) :
    Text.trimStart p "./" = p :=
  trimStart_dot_of_head? fun hhead => (h _ (List.mem_of_head? hhead)).ne_dot rfl

lemma isPlain_of_isName (h : ∀ s ∈ Text.split Byte.slash p, IsName s) : IsPlain p := by
  refine ⟨?_, ?_, fun hp => isName_not_parent (h _ hp)⟩
  · rintro rfl
    exact (h [] (by simp)).ne_nil rfl
  · rw [normalize_eq, trimStart_eq_self_of_isName h, isAbsolute_eq_false_of_isName h,
      (resolved_of_isName h).clean, Text.join_split]

/-- The plain paths are the non-empty sequences of names. -/
theorem isPlain_iff : IsPlain p ↔ ∀ s ∈ Text.split Byte.slash p, IsName s :=
  ⟨IsPlain.isName, isPlain_of_isName⟩

/-- Names spell a plain path. -/
lemma isPlain_join (hne : segs ≠ []) (h : ∀ s ∈ segs, IsName s) :
    IsPlain (Text.join [Byte.slash] segs) := by
  rw [isPlain_iff, Text.split_join hne fun s hs => (h s hs).no_slash]
  exact h

end Path

end MiniProgram
