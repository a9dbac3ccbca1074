import MiniProgram.Proofs.FileSystem.Files
import MiniProgram.Proofs.Path.Plain
import MiniProgram.Resolver

/-!
What a specifier resolves to.

The identifiers of modules are meant to be plain paths. A relative specifier is brought to its
normal form before it is looked up, and refused if it leaves the root. The path inside a package is
put behind the directory of the package as it is spelled, and an entry named by the description of a
package is brought to its normal form but may leave the root; so neither need be plain.

* `isFile_iff`: what the resolver takes for a file can be read.
* `isPlain_of_mem_packageDirs`: packages are looked for in directories below the root.
* `resolve_eq_some`: the ways in which a specifier is resolved.
* `resolve_isPlain`: which identifiers are plain.
* `resolve_exact_file`: what a relative specifier that names a file is resolved to.
-/

namespace MiniProgram

namespace Resolver

open MiniProgram.Path

variable {r : Resolver} {base dir id inside pkg source spec : Text}

/-! ### Files -/

/-- What the resolver takes for a file can be read. -/
theorem isFile_iff : r.isFile id = true ↔ ∃ content, r.fs.read (r.absolute id) = .ok content := by
  rw [isFile, ← FileSystem.read_isOk_iff]
  cases r.fs.read (r.absolute id) with
  | error e => simp [Except.isOk, Except.toBool]
  | ok content => simp [Except.isOk, Except.toBool]

/-! ### Candidates -/

lemma mem_candidates : id ∈ candidates base ↔ (Path.ext base ≠ [] ∧ id = base)
    ∨ (∃ e ∈ probeExts, id = base ++ e) ∨ ∃ e ∈ probeExts, id = base ++ "/index" ++ e := by
  rw [candidates, List.mem_append, List.mem_append, List.mem_map, List.mem_map, or_assoc]
  refine or_congr ?_ (or_congr ?_ ?_)
  · split_ifs with h <;> simp [h]
  · simp [eq_comm]
  · simp [eq_comm]

/-- A candidate is the path with something put behind it. -/
lemma exists_ending (h : id ∈ candidates base) : ∃ ending, id = base ++ ending := by
  rcases mem_candidates.1 h with ⟨-, rfl⟩ | ⟨e, -, rfl⟩ | ⟨e, -, rfl⟩
  · exact ⟨[], (List.append_nil id).symm⟩
  · exact ⟨e, rfl⟩
  · exact ⟨"/index" ++ e, List.append_assoc base _ _⟩

/-- Behind an extension that is tried, any segment is a name. -/
lemma isName_append_ext {s e : Text} (hs : Byte.slash ∉ s) (he : e ∈ probeExts) :
    IsName (s ++ e) := by
  have hall : ∀ e ∈ probeExts, 3 ≤ e.length ∧ Byte.slash ∉ e := by decide
  obtain ⟨hlen, hslash⟩ := hall e he
  have hlong : 3 ≤ (s ++ e).length := by
    rw [List.length_append]
    omega
  refine ⟨?_, ?_, ?_, ?_⟩
  · rintro h
    simp [h] at hlong
  · rintro h
    rw [h] at hlong
    exact absurd hlong (by decide)
  · rintro h
    rw [h] at hlong
    exact absurd hlong (by decide)
  · simp [hs, hslash]

lemma ne_nil_of_mem_candidates (h : id ∈ candidates base) : id ≠ [] := by
  rcases mem_candidates.1 h with ⟨hext, rfl⟩ | ⟨e, he, rfl⟩ | ⟨e, he, rfl⟩
  · rintro rfl
    exact hext rfl
  · exact List.append_ne_nil_of_right_ne_nil _ (isName_append_ext (s := []) (by simp) he).ne_nil
  · exact List.append_ne_nil_of_right_ne_nil _ (isName_append_ext (s := []) (by simp) he).ne_nil

/-- What a plain path may stand for is plain. -/
lemma isPlain_of_mem_candidates (hb : IsPlain base) (h : id ∈ candidates base) : IsPlain id := by
  rcases mem_candidates.1 h with ⟨-, rfl⟩ | ⟨e, he, rfl⟩ | ⟨e, he, rfl⟩
  · exact hb
  · obtain ⟨dirs, last, hsplit⟩ : ∃ dirs last, Text.split Byte.slash base = dirs ++ [last] :=
      ⟨_, _, (List.dropLast_append_getLast (Text.split_ne_nil Byte.slash base)).symm⟩
    have hnames := hb.isName
    rw [hsplit] at hnames
    have hslash : ∀ e ∈ probeExts, Byte.slash ∉ e := by decide
    rw [isPlain_iff, Text.split_concat hsplit (hslash e he)]
    intro s hs
    rcases List.mem_append.1 hs with hs | hs
    · exact hnames s (by simp [hs])
    · rw [List.mem_singleton.1 hs]
      exact isName_append_ext (hnames last (by simp)).no_slash he
  · have hcons : base ++ "/index" ++ e = base ++ Byte.slash :: (("index" : Text) ++ e) := by
      rw [List.append_assoc]
      rfl
    rw [hcons, isPlain_append_iff]
    exact ⟨hb, isPlain_of_isName_self (isName_append_ext (by decide) he)⟩

lemma ext_append_ne_nil {e : Text} (he : e ∈ probeExts) (p : Text) : Path.ext (p ++ e) ≠ [] := by
  have hall : ∀ e ∈ probeExts, (∀ b ∈ e.reverse, decide (b ≠ Byte.slash) = true)
      ∧ Byte.dot ∈ e.reverse := by decide
  obtain ⟨hslash, hdot⟩ := hall e he
  rw [Path.ext, List.reverse_append, List.takeWhile_append_of_pos hslash,
    if_pos (List.mem_append_left _ hdot)]
  exact List.cons_ne_nil _ _

/-- What is tried has an extension. -/
lemma ext_ne_nil_of_mem_candidates (h : id ∈ candidates base) : Path.ext id ≠ [] := by
  rcases mem_candidates.1 h with ⟨hext, rfl⟩ | ⟨e, he, rfl⟩ | ⟨e, he, rfl⟩
  · exact hext
  · exact ext_append_ne_nil he _
  · exact ext_append_ne_nil he _

/-- A file with an extension stands for itself. -/
lemma probe_self (hfile : r.isFile base = true) (hext : Path.ext base ≠ []) :
    r.probe base = some base := by
  rw [probe, candidates, if_neg hext, List.singleton_append, List.cons_append, List.find?_cons,
    hfile]

lemma probe_eq_some (h : r.probe base = some id) : r.isFile id = true ∧ id ∈ candidates base :=
  ⟨List.find?_some h, List.mem_of_find?_eq_some h⟩

/-! ### Directories of packages -/

/-- Cutting at the first slash. -/
lemma cut?_slash {t a b : Text} (h : Text.cut? "/" t = some (a, b)) :
    t = a ++ Byte.slash :: b ∧ Byte.slash ∉ a := by
  induction t generalizing a with
  | nil => cases h
  | cons c t ih =>
      rw [Text.cut?] at h
      by_cases hc : Byte.slash = c
      · subst hc
        have hafter : Text.after? "/" (Byte.slash :: t) = some t := Text.after?_eq_some.2 rfl
        rw [hafter] at h
        cases h
        exact ⟨rfl, by simp⟩
      · have hafter : Text.after? "/" (c :: t) = none := by
          rw [slash_text, Text.after?, if_neg hc]
        rw [hafter] at h
        obtain ⟨⟨a', b'⟩, hcut, heq⟩ := Option.map_eq_some_iff.1 h
        cases heq
        obtain ⟨rfl, hslash⟩ := ih hcut
        exact ⟨rfl, by simp [hc, hslash]⟩

lemma cut?_slash_eq_none {t : Text} (h : Text.cut? "/" t = none) : Byte.slash ∉ t := by
  induction t with
  | nil => simp
  | cons c t ih =>
      rw [Text.cut?] at h
      by_cases hc : Byte.slash = c
      · subst hc
        have hafter : Text.after? "/" (Byte.slash :: t) = some t := Text.after?_eq_some.2 rfl
        rw [hafter] at h
        cases h
      · have hafter : Text.after? "/" (c :: t) = none := by
          rw [slash_text, Text.after?, if_neg hc]
        rw [hafter] at h
        simp only [Option.map_eq_none_iff] at h
        simp [hc, ih h]

/-- What a package specifier starts with is a name. -/
lemma isName_of_append {first rest : Text} (hrel : Script.isRelative (first ++ rest) = false)
    (hne : first ++ rest ≠ []) (hslash : Text.startsWith (first ++ rest) "/" = false)
    (hfirst : Byte.slash ∉ first) (hrest : rest = [] ∨ ∃ t, rest = Byte.slash :: t) :
    IsName first := by
  simp only [Script.isRelative, Bool.or_eq_false_iff, decide_eq_false_iff_not] at hrel
  obtain ⟨⟨⟨hdot, hparent⟩, hdots⟩, hparents⟩ := hrel
  rcases hrest with rfl | ⟨t, rfl⟩
  · rw [List.append_nil] at hdot hparent hne
    exact ⟨hne, hdot, hparent, hfirst⟩
  · refine ⟨?_, ?_, ?_, hfirst⟩
    · rintro rfl
      simp [Text.startsWith, slash_text] at hslash
    · rintro rfl
      exact Bool.eq_false_iff.1 hdots (Text.startsWith_iff.2 ⟨t, rfl⟩)
    · rintro rfl
      exact Bool.eq_false_iff.1 hparents (Text.startsWith_iff.2 ⟨t, rfl⟩)

/-- A package is named by a name, or by a scope, which is a name, and a further segment. -/
lemma split_package (hrel : Script.isRelative spec = false) (hne : spec ≠ [])
    (hslash : Text.startsWith spec "/" = false) :
    ∃ first, IsName first ∧ (Text.split Byte.slash (splitPackage spec).1 = [first]
      ∨ ∃ second, Text.split Byte.slash (splitPackage spec).1 = [first, second]) := by
  cases hcut : Text.cut? "/" spec with
  | none =>
      have hno := cut?_slash_eq_none hcut
      have hname : IsName spec := by
        rw [← List.append_nil spec] at hrel hne hslash
        exact isName_of_append hrel hne hslash hno (Or.inl rfl)
      refine ⟨spec, hname, Or.inl ?_⟩
      simp only [splitPackage, hcut, Option.map_none, Option.getD_none]
      exact Text.split_eq_singleton hno
  | some parts =>
      obtain ⟨first, rest⟩ := parts
      obtain ⟨hspec, hno⟩ := cut?_slash hcut
      have hname : IsName first := by
        rw [hspec] at hrel hne hslash
        exact isName_of_append hrel hne hslash hno (Or.inr ⟨rest, rfl⟩)
      refine ⟨first, hname, ?_⟩
      simp only [splitPackage, hcut, Option.map_some, Option.getD_some]
      -- only a scope takes the segment behind it
      by_cases hscope : Text.startsWith spec "@" = true
      · have hsecond : ∃ second, Byte.slash ∉ second
            ∧ ((Text.cut? "/" rest).getD (rest, [])).1 = second := by
          cases hcut' : Text.cut? "/" rest with
          | none => exact ⟨rest, cut?_slash_eq_none hcut', rfl⟩
          | some parts => exact ⟨parts.1, (cut?_slash hcut').2, rfl⟩
        obtain ⟨second, hslash', heq⟩ := hsecond
        refine Or.inr ⟨second, ?_⟩
        rw [if_pos hscope]
        simp only [heq]
        rw [slash_text, List.append_assoc, List.singleton_append, Text.split_append,
          Text.split_eq_singleton hno, Text.split_eq_singleton hslash']
        rfl
      · rw [if_neg hscope]
        exact Or.inl (Text.split_eq_singleton hno)

/-- The name of a package does not climb. -/
lemma climbs_package (hrel : Script.isRelative spec = false) (hne : spec ≠ [])
    (hslash : Text.startsWith spec "/" = false) :
    climbs (Text.split Byte.slash (splitPackage spec).1) = 0 := by
  have hsegs : ∀ s ∈ Text.split Byte.slash (splitPackage spec).1, Byte.slash ∉ s :=
    fun _ h => no_slash_of_mem_split h
  obtain ⟨first, hname, hone | ⟨second, htwo⟩⟩ := split_package hrel hne hslash
  · rw [hone]
    simp [climbs, cleanSegments, pushSegment_name hname, hname.ne_parent]
  · rw [htwo] at hsegs ⊢
    rcases segment_cases (hsegs second (by simp)) with rfl | rfl | rfl | hsecond
    · simp [climbs, cleanSegments, pushSegment_name hname, hname.ne_parent]
    · simp [climbs, cleanSegments, pushSegment_name hname, hname.ne_parent]
    · simp [climbs, cleanSegments, pushSegment_name hname, pushSegment_parent hname.ne_parent]
    · simp [climbs, cleanSegments, pushSegment_name hname, pushSegment_name hsecond,
        hname.ne_parent]

/-- The text of a directory; `.` for the project root. -/
def directory (names : List Text) : Text :=
  if names = [] then "." else Text.join [Byte.slash] names

lemma exists_eq_directory (hd : dir = ("." : Text) ∨ IsPlain dir) :
    ∃ names, (∀ s ∈ names, IsName s) ∧ dir = directory names := by
  rcases hd with rfl | hd
  · exact ⟨[], by simp, rfl⟩
  · refine ⟨Text.split Byte.slash dir, hd.isName, ?_⟩
    rw [directory, if_neg (Text.split_ne_nil Byte.slash dir), Text.join_split]

/-- What is put behind a directory is put behind its names, of which the root has none. -/
lemma directory_spec {names : List Text} (hn : ∀ s ∈ names, IsName s) :
    directory names ≠ [] ∧ isAbsolute (directory names) = false
      ∧ ∀ segs : List Text, cleanSegments false (Text.split Byte.slash (directory names) ++ segs)
        = cleanSegments false (names ++ segs) := by
  by_cases hne : names = []
  · rw [hne]
    exact ⟨by decide, by decide, fun segs => rfl⟩
  · have hplain := isPlain_join hne hn
    rw [directory, if_neg hne, Text.split_join hne fun s hs => (hn s hs).no_slash]
    exact ⟨hplain.ne_nil, isAbsolute_eq_false_of_isName hplain.isName, fun segs => rfl⟩

lemma isName_append_node_modules {names : List Text} (hn : ∀ s ∈ names, IsName s) :
    ∀ s ∈ names ++ [("node_modules" : Text)], IsName s := by
  refine List.forall_mem_append.2 ⟨hn, fun s hs => ?_⟩
  rw [List.mem_singleton.1 hs]
  constructor <;> decide

/-- The segments of a package in a `node_modules`. -/
lemma split_node_modules (pkg : Text) :
    Text.split Byte.slash (("node_modules" : Text) ++ Byte.slash :: pkg)
      = ("node_modules" : Text) :: Text.split Byte.slash pkg := by
  rw [Text.split_append, Text.split_eq_singleton (by decide), List.singleton_append]

/-- A package directory below the root or below a plain directory is plain. -/
lemma isPlain_join_package (hd : dir = ("." : Text) ∨ IsPlain dir)
    (hc : climbs (Text.split Byte.slash pkg) = 0) :
    IsPlain (Path.join [dir, "node_modules", pkg]) := by
  have hs : ∀ s ∈ Text.split Byte.slash pkg, Byte.slash ∉ s := fun _ h => no_slash_of_mem_split h
  obtain ⟨names, hnames, rfl⟩ := exists_eq_directory hd
  obtain ⟨hne, habs, hsame⟩ := directory_spec hnames
  have hnames' := isName_append_node_modules hnames
  have hclean : cleanSegments false (Text.split Byte.slash (directory names)
      ++ Text.split Byte.slash (("node_modules" : Text) ++ Byte.slash :: pkg))
        = names ++ [("node_modules" : Text)] ++ landing (Text.split Byte.slash pkg) := by
    rw [split_node_modules, hsame, List.append_cons,
      cleanSegments_append_names hnames' hs (by omega), hc, List.rdrop_zero]
  rw [join_triple hne, join_eq_spell hne, habs, hclean]
  · refine isPlain_join (by simp) fun s h => ?_
    rcases List.mem_append.1 h with h | h
    · exact hnames' s h
    · exact isName_of_mem_landing hs h
  · rw [hclean]
    exact Or.inr (by simp)

lemma eq_dot_or_isPlain_of_mem_dirsFrom {fuel : ℕ} {start : Text}
    (hstart : start = ("." : Text) ∨ IsPlain start) (h : dir ∈ dirsFrom fuel start) :
    dir = ("." : Text) ∨ IsPlain dir := by
  induction fuel generalizing start with
  | zero => simp [dirsFrom] at h
  | succ fuel ih =>
      rw [dirsFrom] at h
      split at h
      · rwa [List.mem_singleton.1 h]
      · rename_i hgo
        have hplain : IsPlain start := hstart.resolve_left fun hdot => hgo (by simp [hdot])
        rcases List.mem_cons.1 h with rfl | h
        · exact hstart
        · exact ih (dir_cases hplain.normal hplain.no_parent) h

/-- For a module below the root, a package is looked for in plain directories. -/
theorem isPlain_of_mem_packageDirs {dedupe : List Text} (hn : normalize source = source)
    (hp : (".." : Text) ∉ Text.split Byte.slash source)
    (hc : climbs (Text.split Byte.slash pkg) = 0) (h : dir ∈ packageDirs dedupe source pkg) :
    IsPlain dir := by
  rw [packageDirs] at h
  split_ifs at h
  · -- at the root nothing stands before the directory of the packages
    have hjoin : Path.join ["node_modules", pkg] = Path.join [".", "node_modules", pkg] := by
      rw [join_triple (by decide), join_pair (by decide), join_pair (by decide)]
      rfl
    rw [List.mem_singleton.1 h, hjoin]
    exact isPlain_join_package (Or.inl rfl) hc
  · obtain ⟨d, hd, rfl⟩ := List.mem_map.1 h
    have hplain := isPlain_join_package
      (eq_dot_or_isPlain_of_mem_dirsFrom (dir_cases hn hp) (List.mem_of_mem_filter hd)) hc
    rwa [hplain.normal]

/-! ### Resolving -/

/-- What a package directory offers: a file for the path inside the package, else an entry that the
package describes or its index. -/
lemma inPackage_eq_some (h : r.inPackage inside dir = some id) :
    r.isFile id = true ∧ r.isDir dir = true
    ∧ ((inside ≠ [] ∧ id ∈ candidates (dir ++ "/" ++ inside))
      ∨ (inside = [] ∧ ((∃ path ∈ r.describedEntries dir,
          id ∈ candidates (normalize (Path.join [dir, path])))
        ∨ id ∈ candidates (dir ++ "/index")))) := by
  rw [inPackage] at h
  split at h
  · cases h
  · rename_i hdir
    have hdir : r.isDir dir = true := by simpa using hdir
    split at h
    · rename_i hnil
      rcases Option.or_eq_some_iff.1 h with hfield | ⟨-, hindex⟩
      · obtain ⟨path, hpath, hprobe⟩ := List.exists_of_findSome?_eq_some hfield
        obtain ⟨hfile, hmem⟩ := probe_eq_some hprobe
        exact ⟨hfile, hdir, Or.inr ⟨hnil, Or.inl ⟨path, hpath, hmem⟩⟩⟩
      · obtain ⟨hfile, hmem⟩ := probe_eq_some hindex
        exact ⟨hfile, hdir, Or.inr ⟨hnil, Or.inr hmem⟩⟩
    · rename_i hinside
      obtain ⟨hfile, hmem⟩ := probe_eq_some h
      exact ⟨hfile, hdir, Or.inl ⟨hinside, hmem⟩⟩

/-- The ways in which a specifier is resolved: a relative one to a file below the root, any other by
what one of the directories of its package offers. -/
theorem resolve_eq_some (h : r.resolve source spec = some id) :
    (Script.isRelative spec = true ∧ r.isFile id = true
      ∧ ∃ base, IsPlain base ∧ id ∈ candidates base)
    ∨ (Script.isRelative spec = false ∧ climbs (Text.split Byte.slash (splitPackage spec).1) = 0
      ∧ ∃ dir ∈ packageDirs r.dedupe source (splitPackage spec).1,
        r.inPackage (splitPackage spec).2 dir = some id) := by
  rw [resolve] at h
  split at h
  · rename_i hrel
    dsimp only at h
    split at h
    · cases h
    · rename_i hbase
      simp only [Bool.or_eq_true, decide_eq_true_eq, not_or, Bool.not_eq_true] at hbase
      obtain ⟨hfile, hmem⟩ := probe_eq_some h
      exact Or.inl ⟨hrel, hfile, _, isPlain_normalize hbase.1 hbase.2, hmem⟩
  · rename_i hrel
    have hrel : Script.isRelative spec = false := eq_false_of_ne_true hrel
    split at h
    · cases h
    · rename_i hspec
      simp only [Bool.or_eq_true, decide_eq_true_eq, not_or, Bool.not_eq_true] at hspec
      obtain ⟨dir, hdir, hin⟩ := List.exists_of_findSome?_eq_some h
      exact Or.inr ⟨hrel, climbs_package hrel hspec.1 hspec.2, dir, hdir, hin⟩

lemma isFile_of_resolve (h : r.resolve source spec = some id) : r.isFile id = true := by
  rcases resolve_eq_some h with ⟨-, hfile, -⟩ | ⟨-, -, dir, -, hin⟩
  · exact hfile
  · exact (inPackage_eq_some hin).1

lemma ext_ne_nil_of_resolve (h : r.resolve source spec = some id) : Path.ext id ≠ [] := by
  rcases resolve_eq_some h with ⟨-, -, base, -, hmem⟩ | ⟨-, -, dir, -, hin⟩
  · exact ext_ne_nil_of_mem_candidates hmem
  · rcases (inPackage_eq_some hin).2.2 with ⟨-, hmem⟩ | ⟨-, ⟨path, -, hmem⟩ | hmem⟩
    · exact ext_ne_nil_of_mem_candidates hmem
    · exact ext_ne_nil_of_mem_candidates hmem
    · exact ext_ne_nil_of_mem_candidates hmem

lemma ne_nil_of_resolve (h : r.resolve source spec = some id) : id ≠ [] := by
  rcases resolve_eq_some h with ⟨-, -, base, -, hmem⟩ | ⟨-, -, dir, -, hin⟩
  · exact ne_nil_of_mem_candidates hmem
  · rcases (inPackage_eq_some hin).2.2 with ⟨-, hmem⟩ | ⟨-, ⟨path, -, hmem⟩ | hmem⟩
    · exact ne_nil_of_mem_candidates hmem
    · exact ne_nil_of_mem_candidates hmem
    · exact ne_nil_of_mem_candidates hmem

/-- A file with a plain identifier lies below the root. -/
lemma strictlyBelow_absolute (hroot : isAbsolute r.root = true) (h : IsPlain id) :
    StrictlyBelow (clean r.root) (r.absolute id) := by
  have hs : ∀ s ∈ Text.split Byte.slash id, Byte.slash ∉ s := fun _ hx => no_slash_of_mem_split hx
  have hnames : ∀ s ∈ cleanSegments true (Text.split Byte.slash r.root), IsName s :=
    isName_of_mem_cleanSegments fun x hx => no_slash_of_mem_split hx
  have hclimb : climbs (Text.split Byte.slash id) = 0 := climbs_eq_zero h.no_parent hs
  have hland : landing (Text.split Byte.slash id) = Text.split Byte.slash id := by
    have hform := (cleanSegments_eq hs).1
    rw [hclimb, List.replicate_zero, List.nil_append, (resolved_of_isName h.isName).clean] at hform
    exact hform.symm
  rw [absolute, join_of_isAbsolute hroot, hclimb, hland, List.rdrop_zero,
    clean_eq_spell (Or.inl hroot), hroot, strictlyBelow_spell_iff hnames]
  · exact ⟨_, Text.split_ne_nil _ _, rfl⟩
  · exact fun s hmem => (List.mem_append.1 hmem).elim (hnames s) (h.isName s)

/-- **What a specifier resolves to**, seen from a module in normal form that does not climb. It is
always a file that can be read. It is a plain path, and the file below the root, if the specifier is
relative. If the specifier names a path inside a package, the identifier is plain exactly if that
path is, with what was put behind it. If it names a package as a whole, the identifier is plain
unless the description of the package names an entry that climbs over all directories of the
package. -/
theorem resolve_isPlain (hn : normalize source = source)
    (hp : (".." : Text) ∉ Text.split Byte.slash source) (h : r.resolve source spec = some id) :
    (∃ content, r.fs.read (r.absolute id) = .ok content)
    ∧ (isAbsolute r.root = true → IsPlain id → StrictlyBelow (clean r.root) (r.absolute id))
    ∧ (Script.isRelative spec = true → IsPlain id)
    ∧ (Script.isRelative spec = false → (splitPackage spec).2 ≠ [] →
      ∃ dir ending, IsPlain dir ∧ id = dir ++ "/" ++ ((splitPackage spec).2 ++ ending)
        ∧ (IsPlain id ↔ IsPlain ((splitPackage spec).2 ++ ending)))
    ∧ (Script.isRelative spec = false → IsPlain (splitPackage spec).2 → IsPlain id)
    ∧ (Script.isRelative spec = false → (splitPackage spec).2 = [] → IsPlain id
      ∨ ∃ dir ∈ packageDirs r.dedupe source (splitPackage spec).1, ∃ path ∈ r.describedEntries dir,
        (Text.split Byte.slash dir).length ≤ climbs (Text.split Byte.slash path)) := by
  refine ⟨isFile_iff.1 (isFile_of_resolve h), strictlyBelow_absolute, ?_⟩
  rcases resolve_eq_some h with ⟨hrel, -, base, hbase, hmem⟩ | ⟨hrel, hc, dir, hdir, hin⟩
  · refine ⟨fun _ => isPlain_of_mem_candidates hbase hmem, ?_⟩
    simp [hrel]
  · have hplain : IsPlain dir := isPlain_of_mem_packageDirs hn hp hc hdir
    have hcons : ∀ t : Text, dir ++ "/" ++ t = dir ++ Byte.slash :: t := fun t => by
      rw [slash_text, List.append_assoc]
      rfl
    refine ⟨fun h => by simp [hrel] at h, fun _ hinside => ?_, fun _ hinside => ?_,
      fun _ hnil => ?_⟩
    · obtain ⟨-, -, ⟨-, hmem⟩ | ⟨hnil, -⟩⟩ := inPackage_eq_some hin
      · obtain ⟨ending, rfl⟩ := exists_ending hmem
        refine ⟨dir, ending, hplain, List.append_assoc _ _ _, ?_⟩
        rw [List.append_assoc, hcons, isPlain_append_iff]
        exact and_iff_right hplain
      · exact absurd hnil hinside
    · obtain ⟨-, -, ⟨-, hmem⟩ | ⟨hnil, -⟩⟩ := inPackage_eq_some hin
      · refine isPlain_of_mem_candidates ?_ hmem
        rw [hcons, isPlain_append_iff]
        exact ⟨hplain, hinside⟩
      · exact absurd hnil hinside.ne_nil
    · -- the package as a whole: an entry that its description names, or its index
      obtain ⟨-, -, ⟨hinside, -⟩ | ⟨-, ⟨path, hpath, hmem⟩ | hmem⟩⟩ := inPackage_eq_some hin
      · exact absurd hnil hinside
      · by_cases hlt : climbs (Text.split Byte.slash path) < (Text.split Byte.slash dir).length
        · obtain ⟨names, hnames, hnormal, hne⟩ := normalize_join_of_climbs_le hplain hlt.le
          rw [hnormal] at hmem
          exact Or.inl (isPlain_of_mem_candidates (isPlain_join (hne hlt) hnames) hmem)
        · exact Or.inr ⟨dir, hdir, path, hpath, not_lt.1 hlt⟩
      · refine Or.inl (isPlain_of_mem_candidates ?_ hmem)
        have hindex : dir ++ "/index" = dir ++ Byte.slash :: ("index" : Text) := rfl
        rw [hindex, isPlain_append_iff]
        exact ⟨hplain, by decide⟩

/-- A script inside a scoped package is resolved to a plain path below the root. -/
theorem resolve_isPlain_scoped :
    ∃ r : Resolver, r.resolve "src/a.js" "@s/p/lib/x" = some "node_modules/@s/p/lib/x.js"
      ∧ IsPlain ("node_modules/@s/p/lib/x.js" : Text) := by
  have h : Resolver.resolve ⟨.ofFiles [("/proj/node_modules/@s/p/lib/x.js", "1")], "/proj", []⟩
      "src/a.js" "@s/p/lib/x" = some "node_modules/@s/p/lib/x.js" := by decide +kernel
  obtain ⟨-, -, -, -, hinside, -⟩ := resolve_isPlain (by decide +kernel) (by decide +kernel) h
  exact ⟨_, h, hinside (by decide +kernel) (by decide +kernel)⟩

/-- A doubled slash in a specifier stays in the identifier, and an entry that a package describes
can lead out of the root. -/
theorem exists_resolve_not_isPlain :
    IsPlain ("src/a.js" : Text)
    ∧ (∃ r : Resolver, isAbsolute r.root = true
      ∧ r.resolve "src/a.js" "p//x" = some "node_modules/p//x.js"
      ∧ normalize ("node_modules/p//x.js" : Text) = "node_modules/p/x.js")
    ∧ ∃ r : Resolver, r.root = ("/proj" : Text)
      ∧ r.resolve "src/a.js" "p" = some "../up.js" ∧ r.absolute "../up.js" = "/up.js" := by
  refine ⟨by decide +kernel,
    ⟨⟨.ofFiles [("/proj/node_modules/p/x.js", "1")], "/proj", []⟩, by decide +kernel⟩,
    ⟨.ofFiles [("/proj/node_modules/p/package.json", "\x7b\"main\":\"../../../up.js\"\x7d"),
      ("/up.js", "1")], "/proj", []⟩, by decide +kernel⟩

/-! ### Relative specifiers -/

/-- **The exact file.** A relative specifier that leads to a file below the root, written out with
its extension, is resolved to that file, whatever lies beside it. Only a path that begins with two
dots is taken for one that leaves the root, also where they begin a name. -/
theorem resolve_exact_file {target : Text} (hrel : Script.isRelative spec = true)
    (hlead : Path.join [Path.dir source, spec] = target) (ht : IsPlain target)
    (hext : Path.ext target ≠ []) (hfile : ∃ content, r.fs.read (r.absolute target) = .ok content) :
    r.resolve source spec = if Text.startsWith target ".." then none else some target := by
  have hbase : normalize (Path.join [Path.dir source, spec]) = target := by
    rw [hlead, ht.normal]
  rw [resolve, if_pos hrel, hbase]
  simp only [ht.ne_nil, decide_false, Bool.false_or]
  split_ifs
  · rfl
  · exact probe_self (isFile_iff.2 hfile) hext

/-- The general case beside a file with a longer name and a directory of the same stem. -/
theorem resolve_exact_file_beside :
    ∃ r : Resolver, Path.join [Path.dir "src/pages/index.js", "../.././lib//x.js"] = "lib/x.js"
      ∧ r.fs.contains "/proj/lib/x.js.tsx" = true ∧ r.fs.contains "/proj/lib/x/index.ts" = true
      ∧ r.resolve "src/pages/index.js" "../.././lib//x.js" = some "lib/x.js" := by
  let r : Resolver := ⟨.ofFiles [("/proj/lib/x.js.tsx", "1"), ("/proj/lib/x/index.ts", "2"),
    ("/proj/lib/x.js", "3")], "/proj", []⟩
  have hread : r.fs.read (r.absolute "lib/x.js") = .ok "3" := by decide +kernel
  have h : r.resolve "src/pages/index.js" "../.././lib//x.js"
      = if Text.startsWith "lib/x.js" ".." then none else some "lib/x.js" :=
    resolve_exact_file (by decide) (by decide) (by decide) (by decide) ⟨_, hread⟩
  exact ⟨r, by decide, by decide +kernel, by decide +kernel, h⟩

/-- A file whose name begins with two dots is not found beside its importing module. -/
theorem exists_resolve_exact_file_eq_none :
    ∃ r : Resolver, Script.isRelative "./..a.js" = true
      ∧ Path.join [Path.dir "b.js", "./..a.js"] = "..a.js" ∧ IsPlain ("..a.js" : Text)
      ∧ Path.ext "..a.js" = ".js" ∧ r.fs.read (r.absolute "..a.js") = .ok "1"
      ∧ r.resolve "b.js" "./..a.js" = none :=
  ⟨⟨.ofFiles [("/proj/..a.js", "1")], "/proj", []⟩, by decide +kernel⟩

end Resolver

end MiniProgram
