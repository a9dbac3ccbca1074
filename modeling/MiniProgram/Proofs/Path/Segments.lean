import Mathlib.Data.List.DropRight
import MiniProgram.Path
import MiniProgram.Proofs.Text.Pieces

/-!
Resolving the segments of a path.

`Path.pushSegment` keeps a stack of segments. On the stack of a rooted path only names stand; on
that of any other path the names stand above the parent references that nothing could take back.

* `foldl_pushSegment_clean`: resolving some segments first, without a root, changes nothing for what
  they are appended to. Segments thus act on every stack through their resolved form.
* `cleanSegments_eq`: the resolved form is a number of parent references (`climbs`) and then names
  (`landing`).
* `foldl_pushSegment_names`: on a stack of names, rooted, segments take off as many names as they
  climb and put on the names they land at.
* `mem_of_mem_cleanSegments`: resolving makes no new segments.
-/

namespace MiniProgram

namespace Path

/-- A segment that stands for a file or a directory by its name. -/
structure IsName (s : Text) : Prop where
  ne_nil : s ≠ []
  ne_dot : s ≠ ("." : Text)
  ne_parent : s ≠ (".." : Text)
  no_slash : Byte.slash ∉ s

instance (s : Text) : Decidable (IsName s) :=
  decidable_of_iff (s ≠ [] ∧ s ≠ ("." : Text) ∧ s ≠ (".." : Text) ∧ Byte.slash ∉ s)
    ⟨fun h => ⟨h.1, h.2.1, h.2.2.1, h.2.2.2⟩,
      fun h => ⟨h.ne_nil, h.ne_dot, h.ne_parent, h.no_slash⟩⟩

/-- Every segment is empty, one of the two references, or a name. -/
lemma segment_cases {s : Text} (hs : Byte.slash ∉ s) :
    s = [] ∨ s = ("." : Text) ∨ s = (".." : Text) ∨ IsName s := by
  by_cases h0 : s = []
  · exact Or.inl h0
  by_cases h1 : s = ("." : Text)
  · exact Or.inr (Or.inl h1)
  by_cases h2 : s = (".." : Text)
  · exact Or.inr (Or.inr (Or.inl h2))
  · exact Or.inr (Or.inr (Or.inr ⟨h0, h1, h2, hs⟩))

lemma isName_not_parent : ¬ IsName (".." : Text) := fun h => h.ne_parent rfl

/-! ### One segment -/

variable {rooted : Bool} {kept : List Text} {s last : Text}

@[simp] lemma pushSegment_nil : pushSegment rooted kept [] = kept := rfl

@[simp] lemma pushSegment_dot : pushSegment rooted kept ("." : Text) = kept := rfl

@[simp] lemma pushSegment_parent_rooted : pushSegment true [] (".." : Text) = [] := rfl

@[simp] lemma pushSegment_parent_start :
    pushSegment false [] (".." : Text) = [(".." : Text)] := rfl

@[simp] lemma pushSegment_parent_parent :
    pushSegment rooted ((".." : Text) :: kept) (".." : Text) = (".." : Text) :: ".." :: kept := rfl

lemma pushSegment_parent (h : last ≠ (".." : Text)) :
    pushSegment rooted (last :: kept) (".." : Text) = kept := by
  have h1 : (".." : Text) ≠ [] := by decide
  have h2 : (".." : Text) ≠ ("." : Text) := by decide
  simp [pushSegment, h, h1, h2]

lemma pushSegment_name (h : IsName s) : pushSegment rooted kept s = s :: kept := by
  simp [pushSegment, h.ne_nil, h.ne_dot, h.ne_parent]

/-! ### Stacks -/

/-- The stack of a rooted path holds names. -/
lemma pushSegment_isName (hk : ∀ x ∈ kept, IsName x) (hs : Byte.slash ∉ s) :
    ∀ x ∈ pushSegment true kept s, IsName x := by
  rcases segment_cases hs with rfl | rfl | rfl | hname
  · simpa using hk
  · simpa using hk
  · cases kept with
    | nil => simp
    | cons last kept =>
        rw [pushSegment_parent (hk last (by simp)).ne_parent]
        exact fun x hx => hk x (by simp [hx])
  · rw [pushSegment_name hname]
    simpa using ⟨hname, hk⟩

lemma foldl_pushSegment_isName {segs : List Text} (hk : ∀ x ∈ kept, IsName x)
    (hs : ∀ x ∈ segs, Byte.slash ∉ x) : ∀ x ∈ segs.foldl (pushSegment true) kept, IsName x := by
  induction segs generalizing kept with
  | nil => simpa using hk
  | cons a segs ih =>
      rw [List.foldl_cons]
      exact ih (pushSegment_isName hk (hs a (by simp))) fun x hx => hs x (by simp [hx])

/-- A settled stack: names, the last first, above parent references. -/
def Settled (kept : List Text) : Prop :=
  ∃ (names : List Text) (n : ℕ),
    kept = names ++ List.replicate n (".." : Text) ∧ ∀ x ∈ names, IsName x

lemma settled_nil : Settled [] := ⟨[], 0, rfl, by simp⟩

/-- What stands on a settled stack is a parent reference or a name. -/
lemma Settled.eq_parent_or_isName (h : Settled kept) {x : Text} (hx : x ∈ kept) :
    x = (".." : Text) ∨ IsName x := by
  obtain ⟨names, n, rfl, hnames⟩ := h
  rcases List.mem_append.1 hx with hx | hx
  · exact Or.inr (hnames x hx)
  · exact Or.inl (List.eq_of_mem_replicate hx)

/-- The stack of a path without a root stays settled. -/
lemma Settled.pushSegment (h : Settled kept) (hs : Byte.slash ∉ s) :
    Settled (Path.pushSegment false kept s) := by
  obtain ⟨names, n, rfl, hnames⟩ := h
  rcases segment_cases hs with rfl | rfl | rfl | hname
  · exact ⟨names, n, by simp, hnames⟩
  · exact ⟨names, n, by simp, hnames⟩
  · cases names with
    | cons last names =>
        refine ⟨names, n, ?_, fun x hx => hnames x (by simp [hx])⟩
        exact pushSegment_parent (hnames last (by simp)).ne_parent
    | nil =>
        refine ⟨[], n + 1, ?_, by simp⟩
        cases n with
        | zero => rfl
        | succ n => simp [List.replicate_succ]
  · refine ⟨s :: names, n, pushSegment_name hname, ?_⟩
    simpa using ⟨hname, hnames⟩

lemma Settled.foldl {segs : List Text} (h : Settled kept) (hs : ∀ x ∈ segs, Byte.slash ∉ x) :
    Settled (segs.foldl (Path.pushSegment false) kept) := by
  induction segs generalizing kept with
  | nil => exact h
  | cons a segs ih =>
      rw [List.foldl_cons]
      exact ih (h.pushSegment (hs a (by simp))) fun x hx => hs x (by simp [hx])

/-! ### Resolved segments -/

variable {segs : List Text}

lemma cleanSegments_concat (rooted : Bool) (segs : List Text) (s : Text) :
    cleanSegments rooted (segs ++ [s])
      = (pushSegment rooted (cleanSegments rooted segs).reverse s).reverse := by
  simp [cleanSegments]

lemma settled_reverse_cleanSegments (hs : ∀ x ∈ segs, Byte.slash ∉ x) :
    Settled (cleanSegments false segs).reverse := by
  rw [cleanSegments, List.reverse_reverse]
  exact settled_nil.foldl hs

/-- Segments act on a stack through their resolved form. -/
theorem foldl_pushSegment_clean (rooted : Bool) (kept : List Text)
    (hs : ∀ x ∈ segs, Byte.slash ∉ x) :
    (cleanSegments false segs).foldl (pushSegment rooted) kept
      = segs.foldl (pushSegment rooted) kept := by
  -- by induction on the segments from the right: the last one acts alike on the resolved form of
  -- those before it and on the stack they leave
  induction segs using List.reverseRecOn with
  | nil => rfl
  | append_singleton segs s ih =>
      have hsegs : ∀ x ∈ segs, Byte.slash ∉ x := fun x hx => hs x (by simp [hx])
      have hset := settled_reverse_cleanSegments hsegs
      rw [List.foldl_concat, ← ih hsegs, cleanSegments_concat]
      rcases segment_cases (hs s (by simp)) with rfl | rfl | rfl | hname
      · simp
      · simp
      · cases hc : (cleanSegments false segs).reverse with
        | nil =>
            rw [List.reverse_eq_nil_iff] at hc
            simp [hc]
        | cons last before =>
            rw [List.reverse_eq_iff, List.reverse_cons] at hc
            by_cases hl : last = (".." : Text)
            · subst hl
              simp [hc]
            · have hname : IsName last :=
                (hset.eq_parent_or_isName (by simp [hc])).resolve_left hl
              rw [pushSegment_parent hl, hc, List.foldl_concat, pushSegment_name hname,
                pushSegment_parent hl]
      · simp [pushSegment_name hname]

/-- The number of directories that segments climb above where they start. -/
def climbs (segs : List Text) : ℕ :=
  ((cleanSegments false segs).takeWhile (· = (".." : Text))).length

/-- The names that segments go down by after they have climbed. -/
def landing (segs : List Text) : List Text :=
  (cleanSegments false segs).dropWhile (· = (".." : Text))

/-- The resolved form of segments: they climb, and then go down by names. -/
theorem cleanSegments_eq (hs : ∀ x ∈ segs, Byte.slash ∉ x) :
    cleanSegments false segs = List.replicate (climbs segs) (".." : Text) ++ landing segs
      ∧ ∀ x ∈ landing segs, IsName x := by
  obtain ⟨names, n, hkept, hnames⟩ := settled_reverse_cleanSegments hs
  rw [List.reverse_eq_iff, List.reverse_append, List.reverse_replicate] at hkept
  have hdrop : names.reverse.dropWhile (· = (".." : Text)) = names.reverse := by
    cases hr : names.reverse with
    | nil => rfl
    | cons a rest =>
        have ha : IsName a := hnames a (by rw [← List.mem_reverse, hr]; simp)
        simp [ha.ne_parent]
  have hland : landing segs = names.reverse := by
    rw [landing, hkept, List.dropWhile_append_of_pos (by simp), hdrop]
  have hclimb : climbs segs = n := by
    have htake : names.reverse.takeWhile (· = (".." : Text)) = [] := by
      have h := List.takeWhile_append_dropWhile (p := fun x => decide (x = (".." : Text)))
        (l := names.reverse)
      rw [hdrop] at h
      simpa using h
    rw [climbs, hkept, List.takeWhile_append_of_pos (by simp), htake]
    simp
  rw [hclimb, hland]
  exact ⟨hkept, by simpa using hnames⟩

lemma isName_of_mem_landing (hs : ∀ x ∈ segs, Byte.slash ∉ x) {x : Text} (hx : x ∈ landing segs) :
    IsName x := (cleanSegments_eq hs).2 x hx

/-- Without a parent reference none comes onto a stack. -/
lemma parent_not_mem_foldl (hk : (".." : Text) ∉ kept) (h : (".." : Text) ∉ segs)
    (hs : ∀ x ∈ segs, Byte.slash ∉ x) : (".." : Text) ∉ segs.foldl (pushSegment rooted) kept := by
  induction segs generalizing kept with
  | nil => exact hk
  | cons s segs ih =>
      rw [List.mem_cons, not_or] at h
      rw [List.foldl_cons]
      refine ih ?_ h.2 fun x hx => hs x (by simp [hx])
      rcases segment_cases (hs s (by simp)) with rfl | rfl | rfl | hname
      · exact hk
      · exact hk
      · exact absurd rfl h.1
      · rw [pushSegment_name hname, List.mem_cons, not_or]
        exact ⟨h.1, hk⟩

/-- Without a parent reference nothing is climbed over. -/
lemma climbs_eq_zero (h : (".." : Text) ∉ segs) (hs : ∀ x ∈ segs, Byte.slash ∉ x) :
    climbs segs = 0 := by
  have hnot : (".." : Text) ∉ cleanSegments false segs := by
    rw [cleanSegments, List.mem_reverse]
    exact parent_not_mem_foldl (by simp) h hs
  rw [(cleanSegments_eq hs).1] at hnot
  by_contra hne
  exact hnot (List.mem_append_left _ (List.mem_replicate.2 ⟨hne, rfl⟩))

/-- Names are put on a stack one after the other. -/
lemma foldl_pushSegment_of_isName {names : List Text} (h : ∀ x ∈ names, IsName x) :
    names.foldl (pushSegment rooted) kept = names.reverse ++ kept := by
  induction names generalizing kept with
  | nil => rfl
  | cons a names ih =>
      rw [List.foldl_cons, pushSegment_name (h a (by simp)), ih fun x hx => h x (by simp [hx])]
      simp

/-- Parent references take names off a rooted stack as long as there are any. -/
lemma foldl_pushSegment_replicate (hk : ∀ x ∈ kept, IsName x) (n : ℕ) :
    (List.replicate n (".." : Text)).foldl (pushSegment true) kept = kept.drop n := by
  induction n generalizing kept with
  | zero => rfl
  | succ n ih =>
      rw [List.replicate_succ, List.foldl_cons]
      cases kept with
      | nil => simpa using ih hk
      | cons last kept =>
          rw [pushSegment_parent (hk last (by simp)).ne_parent, List.drop_succ_cons]
          exact ih fun x hx => hk x (by simp [hx])

/-- Segments take the names they climb over off a stack and put the names they land at on it. -/
theorem foldl_pushSegment_eq (rooted : Bool) (kept : List Text)
    (hs : ∀ x ∈ segs, Byte.slash ∉ x) :
    segs.foldl (pushSegment rooted) kept = (landing segs).reverse
      ++ (List.replicate (climbs segs) (".." : Text)).foldl (pushSegment rooted) kept := by
  obtain ⟨hform, hnames⟩ := cleanSegments_eq hs
  rw [← foldl_pushSegment_clean rooted kept hs, hform, List.foldl_append,
    foldl_pushSegment_of_isName hnames]

theorem foldl_pushSegment_names (hk : ∀ x ∈ kept, IsName x) (hs : ∀ x ∈ segs, Byte.slash ∉ x) :
    segs.foldl (pushSegment true) kept = (landing segs).reverse ++ kept.drop (climbs segs) := by
  rw [foldl_pushSegment_eq true kept hs, foldl_pushSegment_replicate hk]

/-- Resolving segments once more, with or without a root, changes nothing. -/
lemma cleanSegments_idem (rooted : Bool) (hs : ∀ x ∈ segs, Byte.slash ∉ x) :
    cleanSegments rooted (cleanSegments rooted segs) = cleanSegments rooted segs := by
  cases rooted with
  | false =>
      rw [cleanSegments, foldl_pushSegment_clean false [] hs, ← cleanSegments]
  | true =>
      have hnames : ∀ x ∈ cleanSegments true segs, IsName x := by
        intro x hx
        rw [cleanSegments, List.mem_reverse] at hx
        exact foldl_pushSegment_isName (by simp) hs x hx
      rw [cleanSegments, foldl_pushSegment_of_isName hnames]
      simp

/-! ### What resolving keeps -/

lemma mem_or_eq_of_mem_pushSegment {x : Text} (hx : x ∈ pushSegment rooted kept s) :
    x ∈ kept ∨ x = s := by
  cases kept with
  | nil =>
      simp only [pushSegment] at hx
      split_ifs at hx <;> simp_all
  | cons last before =>
      simp only [pushSegment] at hx
      split_ifs at hx <;> simp_all [or_comm]

/-- Resolving segments makes no new ones. -/
lemma mem_or_mem_of_mem_foldl {x : Text} (hx : x ∈ segs.foldl (pushSegment rooted) kept) :
    x ∈ kept ∨ x ∈ segs := by
  induction segs generalizing kept with
  | nil => exact Or.inl hx
  | cons s segs ih =>
      rw [List.foldl_cons] at hx
      rcases ih hx with hpush | hmem
      · exact (mem_or_eq_of_mem_pushSegment hpush).imp_right fun heq => by simp [heq]
      · exact Or.inr (List.mem_cons_of_mem _ hmem)

lemma mem_of_mem_cleanSegments {x : Text} (hx : x ∈ cleanSegments rooted segs) : x ∈ segs := by
  rw [cleanSegments, List.mem_reverse] at hx
  exact (mem_or_mem_of_mem_foldl hx).resolve_left List.not_mem_nil

lemma cleanSegments_append_of_isName {names : List Text} (hn : ∀ s ∈ names, IsName s) :
    cleanSegments rooted (segs ++ names) = cleanSegments rooted segs ++ names := by
  rw [cleanSegments, List.foldl_append, foldl_pushSegment_of_isName hn, List.reverse_append,
    List.reverse_reverse, cleanSegments]

end Path

end MiniProgram
