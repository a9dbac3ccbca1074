import MiniProgram.Proofs.Catalog.Pattern
import MiniProgram.Proofs.FileSystem.Walk
import MiniProgram.Proofs.Keyed
import MiniProgram.Proofs.Path.Climbing

/-!
The pages that are found below a source directory.

Of the `index` scripts of a directory the one with the preferred extension is its page. The paths
that match are gone through in the order in which they were found; for each directory the best path
so far is kept, and in the end the kept paths are sorted.

* `Keeps`: what has been kept of the paths gone through, an invariant of `keep`.
* `mem_preferred_iff`: what is kept in the end is the best path of each directory.
* `pageOf?`: the page of a directory, by trying one extension after the other.
* `mem_pagesAmong_iff`: **the pages among the matches** are those of the directories.
* `findPages_eq`: **page discovery in a tree of files** gives the page of each directory at or below
  the directory of the pages, in ascending order, whatever the order of the matches.
-/

namespace MiniProgram

namespace Catalog

open MiniProgram.Path

variable {paths kept seen : List Text} {p q d ext : Text}

/-! ### The best path of each directory -/

/-- What is kept of the paths that have been seen: one for each directory, with an extension no less
preferred than that of any other there. -/
structure Keeps (seen kept : List Text) : Prop where
  subset : ∀ p ∈ kept, p ∈ seen
  nodup : (kept.map Path.dir).Nodup
  best : ∀ p ∈ seen, ∃ q ∈ kept, Path.dir q = Path.dir p ∧ extRank q ≤ extRank p

lemma keeps_nil : Keeps [] [] := ⟨by simp, by simp, by simp⟩

/-- A path that is no better than one that is kept can be passed over. -/
lemma Keeps.skip (h : Keeps seen kept) (hq : q ∈ kept) (hdir : Path.dir q = Path.dir p)
    (hrank : extRank q ≤ extRank p) : Keeps (seen ++ [p]) kept := by
  refine ⟨fun r hr => List.mem_append_left _ (h.subset r hr), h.nodup, fun r hr => ?_⟩
  rcases List.mem_append.1 hr with hr | hr
  · exact h.best r hr
  · obtain rfl := List.mem_singleton.1 hr
    exact ⟨q, hq, hdir, hrank⟩

/-- A path in a directory of which nothing is kept is kept too. -/
lemma Keeps.concat (h : Keeps seen kept) (hfresh : ∀ q ∈ kept, Path.dir q ≠ Path.dir p) :
    Keeps (seen ++ [p]) (kept ++ [p]) := by
  refine ⟨fun q hq => ?_, nodup_map_append_singleton_iff.2 ⟨h.nodup, hfresh⟩, fun q hq => ?_⟩
  · exact List.mem_append.2 ((List.mem_append.1 hq).imp_left (h.subset q))
  · rcases List.mem_append.1 hq with hq | hq
    · obtain ⟨r, hr, hbest⟩ := h.best q hq
      exact ⟨r, List.mem_append_left _ hr, hbest⟩
    · exact ⟨q, List.mem_append_right _ hq, rfl, le_rfl⟩

/-- A better path takes the place of the one that is kept of its directory. -/
lemma Keeps.replace (h : Keeps seen kept) (hq : q ∈ kept) (hdir : Path.dir q = Path.dir p)
    (hrank : extRank p ≤ extRank q) :
    Keeps (seen ++ [p]) (kept.map fun r => if r = q then p else r) := by
  have hp : p ∈ kept.map fun r => if r = q then p else r := List.mem_map.2 ⟨q, hq, if_pos rfl⟩
  have hdirs : (kept.map fun r => if r = q then p else r).map Path.dir = kept.map Path.dir := by
    rw [List.map_map]
    refine List.map_congr_left fun r _ => ?_
    rw [Function.comp_apply]
    split_ifs with heq
    · rw [heq, hdir]
    · rfl
  refine ⟨fun r hr => ?_, hdirs ▸ h.nodup, fun r hr => ?_⟩
  · obtain ⟨s, hs, rfl⟩ := List.mem_map.1 hr
    split_ifs
    · exact List.mem_append_right _ (List.mem_singleton_self p)
    · exact List.mem_append_left _ (h.subset s hs)
  · rcases List.mem_append.1 hr with hr | hr
    · obtain ⟨s, hs, hsdir, hsrank⟩ := h.best r hr
      by_cases heq : s = q
      · subst heq
        exact ⟨p, hp, hdir.symm.trans hsdir, hrank.trans hsrank⟩
      · exact ⟨s, List.mem_map.2 ⟨s, hs, if_neg heq⟩, hsdir, hsrank⟩
    · obtain rfl := List.mem_singleton.1 hr
      exact ⟨r, hp, rfl, le_rfl⟩

/-- One more path keeps the invariant. -/
lemma Keeps.keep (h : Keeps seen kept) (p : Text) : Keeps (seen ++ [p]) (Catalog.keep kept p) := by
  rw [Catalog.keep]
  cases hfind : kept.find? fun q => Path.dir q = Path.dir p with
  | none => exact h.concat (find?_key_eq_none_iff.1 hfind)
  | some q =>
      obtain ⟨hq, hdir⟩ := (find?_key_eq_some_iff h.nodup).1 hfind
      dsimp only
      split_ifs with hrank
      · exact h.skip hq hdir hrank
      · exact h.replace hq hdir (Nat.le_of_not_le hrank)

/-- Going through all paths keeps the invariant. -/
lemma keeps_preferred (paths : List Text) : Keeps paths (preferred paths) := by
  induction paths using List.reverseRecOn with
  | nil => exact keeps_nil
  | append_singleton paths p ih =>
      rw [preferred, List.foldl_concat]
      exact ih.keep p

/-- Kept is the path of each directory whose extension comes first. -/
theorem mem_preferred_iff
    (h : ∀ p ∈ paths, ∀ q ∈ paths, Path.dir p = Path.dir q → extRank p = extRank q → p = q) :
    p ∈ preferred paths
      ↔ p ∈ paths ∧ ∀ q ∈ paths, Path.dir q = Path.dir p → extRank p ≤ extRank q := by
  have hkeeps := keeps_preferred paths
  constructor
  · intro hp
    refine ⟨hkeeps.subset p hp, fun q hq hdir => ?_⟩
    obtain ⟨r, hr, hrdir, hrank⟩ := hkeeps.best q hq
    rwa [List.inj_on_of_nodup_map hkeeps.nodup hp hr (hdir.symm.trans hrdir.symm)]
  · rintro ⟨hp, hbest⟩
    obtain ⟨r, hr, hdir, hrank⟩ := hkeeps.best p hp
    have hr' := hkeeps.subset r hr
    rwa [h p hp r hr' hdir.symm (le_antisymm (hbest r hr' hdir) hrank)]

/-! ### The page of a directory -/

/-- Whether a path is a file that may be a page: it lies in no package. -/
def mayBePage (files : List Text) (p : Text) : Bool :=
  files.contains p && !Text.includes p "/node_modules/"

/-- The page of a directory: its `index` script with the first extension there is one for. -/
def pageOf? (files : List Text) (d : Text) : Option Text :=
  (scriptExts.map (pageAt d)).find? (mayBePage files)

variable {files found : List Text} {top : Text}

lemma pageOf?_eq_some_iff :
    pageOf? files d = some p ↔ ∃ ext ∈ scriptExts, p = pageAt d ext ∧ mayBePage files p = true
      ∧ ∀ ext' ∈ scriptExts, mayBePage files (pageAt d ext') = true →
        scriptExts.idxOf ext ≤ scriptExts.idxOf ext' := by
  rw [pageOf?, List.find?_map, Option.map_eq_some_iff]
  refine exists_congr fun ext => ?_
  rw [find?_eq_some_iff_idxOf]
  constructor
  · rintro ⟨⟨hext, hpage, hfirst⟩, rfl⟩
    exact ⟨hext, rfl, hpage, hfirst⟩
  · rintro ⟨hext, rfl, hpage, hfirst⟩
    exact ⟨⟨hext, hpage, hfirst⟩, rfl⟩

/-! ### Where an `index` script is -/

lemma dir_pageAt (hd : IsPlain d) (hext : ext ∈ scriptExts) : Path.dir (pageAt d ext) = d := by
  have hlast : ∀ ext ∈ scriptExts, Byte.slash ∉ ("index" : Text) ++ ext := by decide
  have hpath : pageAt d ext
      = Text.join [Byte.slash] (Text.split Byte.slash d ++ [("index" : Text) ++ ext]) := by
    rw [Text.join_append (Text.split_ne_nil _ _) (List.cons_ne_nil _ _), Text.join_split,
      Text.join_singleton, pageAt, List.append_assoc, List.singleton_append]
  rw [hpath, dir_join hd.isName (hlast ext hext), if_neg (Text.split_ne_nil _ _), Text.join_split]

lemma extRank_pageAt (hext : ext ∈ scriptExts) :
    extRank (pageAt d ext) = scriptExts.idxOf ext := by
  have hlast : ∀ ext ∈ scriptExts, Byte.slash ∉ ("index" : Text) ++ ext
      ∧ Path.ext (("index" : Text) ++ ext) = ext := by decide
  obtain ⟨hslash, hself⟩ := hlast ext hext
  rw [extRank, pageAt, ext_concat hslash, hself]

/-! ### The pages among the matches -/

/-- What is found when a tree is searched for pages: the `index` scripts at or below a directory. -/
def FindsPages (files : List Text) (top : Text) (found : List Text) : Prop :=
  ∀ p, p ∈ found
    ↔ p ∈ files ∧ ∃ d, Memory.covers top d = true ∧ ∃ ext ∈ scriptExts, p = pageAt d ext

/-- **The pages among the matches** are the pages of the directories. -/
theorem mem_pagesAmong_iff (hplain : ∀ r ∈ files, IsPlain r) (hfound : FindsPages files top found) :
    p ∈ pagesAmong found ↔ ∃ d, Memory.covers top d = true ∧ pageOf? files d = some p := by
  have hmem : ∀ q, q ∈ found.filter (fun p => !Text.includes p "/node_modules/")
      ↔ mayBePage files q = true
        ∧ ∃ d, Memory.covers top d = true ∧ ∃ ext ∈ scriptExts, q = pageAt d ext := by
    intro q
    rw [List.mem_filter, hfound, mayBePage, Bool.and_eq_true, List.contains_iff_mem]
    tauto
  -- an `index` script tells its directory and its rank
  have hdir : ∀ d, ∀ ext ∈ scriptExts, mayBePage files (pageAt d ext) = true →
      Path.dir (pageAt d ext) = d := by
    intro d ext hext hpage
    rw [mayBePage, Bool.and_eq_true, List.contains_iff_mem] at hpage
    exact dir_pageAt (isPlain_append_iff.1 (hplain _ hpage.1)).1 hext
  rw [pagesAmong, Text.sort, List.mem_mergeSort, mem_preferred_iff]
  · constructor
    · rintro ⟨hp, hbest⟩
      obtain ⟨hpage, d, hd, ext, hext, rfl⟩ := (hmem _).1 hp
      refine ⟨d, hd, pageOf?_eq_some_iff.2 ⟨ext, hext, rfl, hpage, fun ext' hext' hpage' => ?_⟩⟩
      have hrank := hbest _ ((hmem _).2 ⟨hpage', d, hd, ext', hext', rfl⟩)
        ((hdir d ext' hext' hpage').trans (hdir d ext hext hpage).symm)
      rwa [extRank_pageAt hext, extRank_pageAt hext'] at hrank
    · rintro ⟨d, hd, hpageOf⟩
      obtain ⟨ext, hext, rfl, hpage, hfirst⟩ := pageOf?_eq_some_iff.1 hpageOf
      refine ⟨(hmem _).2 ⟨hpage, d, hd, ext, hext, rfl⟩, fun q hq hsame => ?_⟩
      obtain ⟨hpage', d', -, ext', hext', rfl⟩ := (hmem _).1 hq
      rw [hdir d' ext' hext' hpage', hdir d ext hext hpage] at hsame
      subst hsame
      rw [extRank_pageAt hext, extRank_pageAt hext']
      exact hfirst ext' hext' hpage'
  · intro p hp q hq hsame hrank
    obtain ⟨hpage, d, -, ext, hext, rfl⟩ := (hmem _).1 hp
    obtain ⟨hpage', d', -, ext', hext', rfl⟩ := (hmem _).1 hq
    rw [hdir d ext hext hpage, hdir d' ext' hext' hpage'] at hsame
    rw [extRank_pageAt hext, extRank_pageAt hext', List.idxOf_inj hext] at hrank
    rw [hsame, hrank]

/-- There is at most one page for each directory. -/
lemma nodup_map_dir_pagesAmong (found : List Text) : ((pagesAmong found).map Path.dir).Nodup := by
  rw [pagesAmong, Text.sort]
  exact ((List.mergeSort_perm _ _).map Path.dir).nodup_iff.2 (keeps_preferred _).nodup

lemma pairwise_pagesAmong (found : List Text) : (pagesAmong found).Pairwise (· < ·) := by
  rw [pagesAmong, Text.sort]
  refine Text.pairwise_lt_mergeSort_key id ?_
  rw [List.map_id]
  exact (keeps_preferred _).nodup.of_map Path.dir

/-! ### Page discovery -/

/-- No directory is named like an `index` script. -/
def NoIndexDir (files : List Text) : Prop :=
  ∀ r ∈ files, ∀ ext ∈ scriptExts, ("index" : Text) ++ ext ∉ (Text.split Byte.slash r).dropLast

instance (files : List Text) : Decidable (NoIndexDir files) :=
  inferInstanceAs (Decidable (∀ r ∈ files, ∀ ext ∈ scriptExts,
    ("index" : Text) ++ ext ∉ (Text.split Byte.slash r).dropLast))

variable {m : Memory} {locked : Bool} {dir sourceDir : Text} {v : FileSystem.View}

/-- An `index` script that is shown is a file. -/
lemma isShown_pageAt_iff (hnames : NoIndexDir files) (hext : ext ∈ scriptExts) :
    Memory.IsShown files (pageAt d ext) ↔ pageAt d ext ∈ files := by
  constructor
  · rintro ⟨r, hr, hcovers⟩
    rcases Memory.covers_iff.1 hcovers with rfl | ⟨rest, rfl⟩
    · exact hr
    · have hlast : ∀ ext ∈ scriptExts, Byte.slash ∉ ("index" : Text) ++ ext := by decide
      refine absurd ?_ (hnames _ hr ext hext)
      rw [pageAt, slash_text, List.append_assoc, List.append_assoc, List.singleton_append,
        List.cons_append, Text.split_append, Text.split_append,
        Text.split_eq_singleton (hlast ext hext), ← List.append_assoc,
        List.dropLast_append_of_ne_nil (Text.split_ne_nil _ _)]
      simp
  · exact fun hmem => ⟨_, hmem, Memory.covers_iff.2 (Or.inl rfl)⟩

/-- In a tree of files, the pattern finds the `index` scripts. -/
lemma finds_glob (h : m.IsTree) (hv : FileSystem.view ⟨.memory m, locked⟩ dir = .ok v)
    (hnames : NoIndexDir (m.filesBelow (Memory.key dir)))
    (hsource : Text.includesAny sourceDir metaBytes = false) :
    FindsPages (m.filesBelow (Memory.key dir)) (pagesDir sourceDir)
      (v.glob (pagePattern sourceDir)) := by
  intro p
  rw [FileSystem.View.glob, List.mem_filter, matches_pagePattern_iff hsource]
  refine and_congr_left ?_
  rintro ⟨d, -, ext, hext, rfl⟩
  rw [FileSystem.mem_tree_iff h hv (by simp [pageAt]), isShown_pageAt_iff hnames hext]

/-- **Page discovery in a tree of files**: below a source directory that stands for itself in a
pattern there is one page for each directory with an `index` script, the one whose extension comes
first, in ascending order and whatever the order in which the scripts were found. -/
theorem findPages_eq (h : m.IsTree) (hv : FileSystem.view ⟨.memory m, locked⟩ dir = .ok v)
    (hnames : NoIndexDir (m.filesBelow (Memory.key dir)))
    (hsource : Text.includesAny sourceDir metaBytes = false) :
    ∃ pages, findPages v sourceDir = .ok pages
      ∧ pages.Pairwise (· < ·)
      ∧ (pages.map Path.dir).Nodup
      ∧ (∀ p, p ∈ pages ↔ ∃ d, Memory.covers (pagesDir sourceDir) d = true
        ∧ pageOf? (m.filesBelow (Memory.key dir)) d = some p)
      ∧ ∀ found, (∀ p, p ∈ found ↔ p ∈ v.glob (pagePattern sourceDir)) →
        pagesAmong found = pages := by
  have hplain : ∀ r ∈ m.filesBelow (Memory.key dir), IsPlain r := fun r hr =>
    Memory.isPlain_of_mem_filesBelow h hr
  have hfinds := finds_glob h hv hnames hsource
  refine ⟨pagesAmong (v.glob (pagePattern sourceDir)), ?_, pairwise_pagesAmong _,
    nodup_map_dir_pagesAmong _, fun p => mem_pagesAmong_iff hplain hfinds, fun found hfound => ?_⟩
  · rw [findPages, isValid_pagePattern hsource]
    rfl
  · refine Text.eq_of_pairwise_lt (pairwise_pagesAmong _) (pairwise_pagesAmong _) fun p => ?_
    have hfinds' : FindsPages (m.filesBelow (Memory.key dir)) (pagesDir sourceDir) found := fun p =>
      (hfound p).trans (hfinds p)
    rw [mem_pagesAmong_iff hplain hfinds', mem_pagesAmong_iff hplain hfinds]

/-- Of two `index` scripts in one directory the one with the preferred extension is a page. -/
theorem findPages_eq_two :
    ∃ pages, findPages ⟨⟨.memory ⟨[("proj/src/pages/index.js", "a"),
        ("proj/src/pages/index.tsx", "b"), ("proj/src/pages/node_modules/ui/index.ts", "c")]⟩,
          false⟩, "/proj"⟩ "src" = .ok pages
      ∧ pages.Pairwise (· < ·)
      ∧ ("src/pages/index.tsx" : Text) ∈ pages
      ∧ ("src/pages/index.js" : Text) ∉ pages := by
  set m : Memory := ⟨[("proj/src/pages/index.js", "a"), ("proj/src/pages/index.tsx", "b"),
    ("proj/src/pages/node_modules/ui/index.ts", "c")]⟩
  have htree : m.IsTree := by decide +kernel
  have hnames : NoIndexDir (m.filesBelow (Memory.key "/proj")) := by decide +kernel
  have hview : FileSystem.view ⟨.memory m, false⟩ "/proj" = .ok ⟨⟨.memory m, false⟩, "/proj"⟩ := by
    decide +kernel
  have hsource : Text.includesAny "src" metaBytes = false := by decide
  obtain ⟨pages, hfound, hsorted, hdirs, hmem, -⟩ := findPages_eq htree hview hnames hsource
  have hkept : ("src/pages/index.tsx" : Text) ∈ pages :=
    (hmem _).2 ⟨"src/pages", by decide +kernel, by decide +kernel⟩
  refine ⟨pages, hfound, hsorted, hkept, fun hother => ?_⟩
  have hsame := List.inj_on_of_nodup_map hdirs hkept hother (by decide +kernel)
  exact absurd hsame (by decide)

end Catalog

end MiniProgram
