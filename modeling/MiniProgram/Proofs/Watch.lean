import MiniProgram.Proofs.Build.Frame
import MiniProgram.Proofs.Path.Between
import MiniProgram.Proofs.Path.Climbing
import MiniProgram.Watch

/-!
Whether a watched build sets itself off.

Changes below the output directory are to be passed over, or every pass would be followed by another
one. What is passed over is told by the names on the way from the root: `node_modules`, hidden names
and the first piece of the setting for the output directory, as it is spelled. Changes are reported
by cleaned paths, so that the last of these only helps if cleaning the setting keeps its first
piece.

* `skipsPath_spell_iff`: which changes below the root are passed over.
* `skipsBelow_iff`: a directory is passed over with all that is in it exactly if it is itself passed
  over and the root does not lie in it.
* `skipsBelow_outDir_iff`: for which settings this holds of the output directory; for those in
  normal form it does.
* `not_skipsBelow_outDir`: `./out` is accepted as an output directory, and is watched.
* `skipsPath_of_mem_written`: where the output directory is passed over, so is all that a build
  writes.
-/

namespace MiniProgram

namespace WatchFilter

open MiniProgram.Path MiniProgram.Project

variable {w : WatchFilter} {dirs names : List Text} {q : Text}

/-! ### Passing over changes -/

lemma skipsName_parent (w : WatchFilter) : w.skipsName (".." : Text) = true := by
  rw [skipsName, Bool.or_eq_true]
  exact Or.inr (by decide)

/-- A change below the root is passed over if one of the names on the way to it is; so is one of
the root itself or outside it. -/
theorem skipsPath_spell_iff (hd : ∀ s ∈ dirs, IsName s) (hn : ∀ s ∈ names, IsName s)
    (hroot : clean w.root = spell true dirs) (hq : clean q = spell true names) :
    w.skipsPath q = true
      ↔ ∀ rest, names = dirs ++ rest → rest = [] ∨ ∃ s ∈ rest, w.skipsName s = true := by
  rw [skipsPath, relativeTo?_eq hd hn hroot hq]
  by_cases hstarts : dirs <+: names
  · obtain ⟨rest, rfl⟩ := hstarts
    have hrest : ∀ s ∈ rest, IsName s := fun s hs => hn s (List.mem_append_right _ hs)
    have hall : (∀ rest', dirs ++ rest = dirs ++ rest' →
          rest' = [] ∨ ∃ s ∈ rest', w.skipsName s = true)
        ↔ rest = [] ∨ ∃ s ∈ rest, w.skipsName s = true := by
      simp
    rw [hall]
    by_cases hnil : rest = []
    · subst hnil
      simp
    · rw [if_neg (by simpa using hnil), segmentsBetween?_append, Option.map_some]
      have hresolved : Resolved false rest := resolved_of_isName hrest
      have hdot : Text.join [Byte.slash] rest ≠ ("." : Text) := join_ne_dot hresolved
      simp only [hdot, hnil, Text.split_join hnil fun s hs => (hrest s hs).no_slash, decide_false,
        Bool.false_or, List.any_eq_true, false_or]
  · -- outside the root the way climbs, and a parent reference is a hidden name
    have hsame : dirs ≠ names := fun h => hstarts (h ▸ List.prefix_rfl)
    obtain ⟨rest, hbetween⟩ := segmentsBetween?_of_not_prefix hd hstarts
    have hparent : (".." : Text)
        ∈ Text.split Byte.slash (Text.join [Byte.slash] ((".." : Text) :: rest)) :=
      mem_split_join_cons (by decide) rest
    rw [if_neg hsame, hbetween, Option.map_some]
    refine iff_of_true ?_ fun rest' h => absurd ⟨rest', h.symm⟩ hstarts
    rw [Bool.or_eq_true, List.any_eq_true]
    exact Or.inr ⟨_, hparent, skipsName_parent w⟩

/-- Whether all changes at or below a directory are passed over. -/
def SkipsBelow (w : WatchFilter) (top : Text) : Prop := ∀ q, AtOrBelow top q → w.skipsPath q = true

/-- A directory is passed over with all that is in it exactly if it is itself passed over and the
root does not lie in it, provided that not every name is passed over. -/
theorem skipsBelow_iff {top : List Text} {name : Text} (hd : ∀ s ∈ dirs, IsName s)
    (ht : ∀ s ∈ top, IsName s) (hroot : clean w.root = spell true dirs) (hname : IsName name)
    (hseen : w.skipsName name = false) :
    w.SkipsBelow (spell true top)
      ↔ ¬ AtOrBelow (spell true top) w.root ∧ w.skipsPath (spell true top) = true := by
  rw [atOrBelow_spell_iff ht hd hroot]
  constructor
  · refine fun h => ⟨?_, h _ (Or.inl (clean_spell_true ht))⟩
    -- If the root lies in the directory, then so does a new file in the root.
    intro hstarts
    have hnew : ∀ s ∈ dirs ++ [name], IsName s :=
      List.forall_mem_append.2 ⟨hd, by simpa using hname⟩
    have hclean := clean_spell_true hnew
    have hskip : w.skipsPath (spell true (dirs ++ [name])) = true :=
      h _ ((atOrBelow_spell_iff ht hnew hclean).2 (hstarts.trans (List.prefix_append _ _)))
    rw [skipsPath_spell_iff hd hnew hroot hclean] at hskip
    simpa [hseen] using hskip [name] rfl
  · rintro ⟨hout, htop⟩ q hq
    obtain ⟨more, hmore, hq⟩ := (atOrBelow_iff ht).1 hq
    rw [skipsPath_spell_iff hd ht hroot (clean_spell_true ht)] at htop
    rw [skipsPath_spell_iff hd (List.forall_mem_append.2 ⟨ht, hmore⟩) hroot hq]
    intro rest hrest
    rcases List.append_eq_append_iff.1 hrest with ⟨left, hdirs, -⟩ | ⟨inner, hinner, rfl⟩
    · exact absurd ⟨left, hdirs.symm⟩ hout
    · rcases htop inner hinner with hnil | ⟨s, hs, hskip⟩
      · rw [hnil, List.append_nil] at hinner
        exact absurd (hinner ▸ List.prefix_rfl) hout
      · exact Or.inr ⟨s, List.mem_append_left _ hs, hskip⟩

/-- A directory inside the root is passed over with all that is in it exactly if one of the names on
the way to it is. -/
lemma skipsBelow_append_iff {inner : List Text} {name : Text} (hd : ∀ s ∈ dirs, IsName s)
    (hi : ∀ s ∈ inner, IsName s) (hne : inner ≠ []) (hroot : clean w.root = spell true dirs)
    (hname : IsName name) (hseen : w.skipsName name = false) :
    w.SkipsBelow (spell true (dirs ++ inner)) ↔ ∃ s ∈ inner, w.skipsName s = true := by
  have ht : ∀ s ∈ dirs ++ inner, IsName s := List.forall_mem_append.2 ⟨hd, hi⟩
  have hout : ¬ AtOrBelow (spell true (dirs ++ inner)) w.root := by
    rw [atOrBelow_spell_iff ht hd hroot]
    intro hstarts
    have hlength := hstarts.length_le
    have hpos := List.length_pos_iff.2 hne
    rw [List.length_append] at hlength
    omega
  rw [skipsBelow_iff hd ht hroot hname hseen, and_iff_right hout,
    skipsPath_spell_iff hd ht hroot (clean_spell_true ht)]
  simp [hne]

/-! ### The output directory -/

/-- What is passed over in a project. -/
lemma skipsName_ofProject_iff {p : Project} {s : Text} :
    (ofProject p).skipsName s = true
      ↔ s = ("node_modules" : Text) ∨ Text.startsWith s "." = true
        ∨ p.outSegments.head? = some s := by
  obtain ⟨first, rest, hsplit⟩ :=
    List.exists_cons_of_ne_nil (Text.split_ne_nil Byte.slash p.outDirName)
  simp only [skipsName, ofProject, outSegments, hsplit, List.headD_cons, List.head?_cons,
    List.contains_cons, List.contains_nil, Bool.or_false, Bool.or_eq_true, beq_iff_eq,
    Option.some.injEq, eq_comm (a := first)]
  tauto

/-- Not every name is passed over. -/
lemma exists_seen (p : Project) : ∃ name, IsName name ∧ (ofProject p).skipsName name = false := by
  have hseen {name : Text} (hname : IsName name) (hmodules : name ≠ "node_modules")
      (hhidden : Text.startsWith name "." = false) (hfirst : p.outSegments.head? ≠ some name) :
      ∃ name, IsName name ∧ (ofProject p).skipsName name = false := by
    refine ⟨name, hname, ?_⟩
    rw [← Bool.not_eq_true, skipsName_ofProject_iff]
    simp [hmodules, hhidden, hfirst]
  by_cases hfirst : p.outSegments.head? = some "a"
  · refine hseen (by decide : IsName "b") (by decide) (by decide) fun h => ?_
    rw [hfirst] at h
    exact absurd h (by decide)
  · exact hseen (by decide : IsName "a") (by decide) (by decide) hfirst

section OutDir

variable {p : Project}

/-- Whether the output directory is passed over, by where it lies. -/
lemma skipsBelow_outDir_iff_skipsPath (habs : isAbsolute p.root = true) (hp : Checked p) :
    (ofProject p).SkipsBelow p.outDir
      ↔ ¬ AtOrBelow p.outDir p.root ∧ (ofProject p).skipsPath p.outDir = true := by
  obtain ⟨name, hname, hseen⟩ := exists_seen p
  have hres := resolved_targetSegments p
  rw [habs] at hres
  rw [outDir_eq_spell hp, habs]
  exact skipsBelow_iff (isName_of_mem_cleanSegments_split p.root) hres.isName
    (clean_of_isAbsolute habs) hname hseen

/-- An output directory that does not climb is passed over if one of the names it goes down by
is. -/
lemma skipsBelow_outDir_iff_exists (habs : isAbsolute p.root = true) (hp : Checked p)
    (hstart : Text.startsWith p.outDirName ".//" = false) :
    (ofProject p).SkipsBelow p.outDir
      ↔ ∃ s ∈ landing p.outSegments, (ofProject p).skipsName s = true := by
  obtain ⟨hclimb, hland⟩ := climbs_and_landing hp
  rw [hstart] at hclimb
  have hclimbs : climbs p.outSegments = 0 := hclimb.resolve_right (by simp)
  have hlanding : ∀ s ∈ landing p.outSegments, IsName s := fun _ hs =>
    isName_of_mem_landing (no_slash_of_mem_outSegments p) hs
  obtain ⟨name, hname, hseen⟩ := exists_seen p
  rw [outDir, join_of_isAbsolute habs, hclimbs, List.rdrop_zero]
  exact skipsBelow_append_iff (isName_of_mem_cleanSegments_split p.root) hlanding hland
    (clean_of_isAbsolute habs) hname hseen

/-- A setting in normal form goes down by its pieces. -/
lemma landing_of_isPlain (h : IsPlain p.outDirName) :
    Text.startsWith p.outDirName ".//" = false ∧ landing p.outSegments = p.outSegments := by
  constructor
  · rw [← Bool.not_eq_true, Text.startsWith_iff]
    rintro ⟨rest, hrest⟩
    have hdot : (".//" : Text) ++ rest = ("." : Text) ++ Byte.slash :: Byte.slash :: rest := rfl
    rw [← hrest, hdot, isPlain_append_iff] at h
    exact absurd h.1 (by decide)
  · exact landing_of_cleanSegments (n := 0) h.isName (resolved_of_isName h.isName).clean

/-- An output directory in normal form is passed over: its first piece is a name it goes down
by. -/
lemma skipsBelow_outDir_of_isPlain (habs : isAbsolute p.root = true) (hp : Checked p)
    (hplain : IsPlain p.outDirName) : (ofProject p).SkipsBelow p.outDir := by
  obtain ⟨hstart, hland⟩ := landing_of_isPlain hplain
  obtain ⟨first, rest, hsplit⟩ :=
    List.exists_cons_of_ne_nil (Text.split_ne_nil Byte.slash p.outDirName)
  rw [skipsBelow_outDir_iff_exists habs hp hstart, hland]
  refine ⟨first, ?_, skipsName_ofProject_iff.2 (Or.inr (Or.inr ?_))⟩
  · simp [outSegments, hsplit]
  · rw [outSegments, hsplit, List.head?_cons]

end OutDir

/-- **Whether a watched build sets itself off.** At an absolute root, the changes at or below the
output directory are all passed over exactly if the output directory is itself passed over and the
root does not lie in it. Unless the setting begins with `.//`, this is so exactly if one of the
names it goes down by is `node_modules`, is hidden or is the first piece of its spelling; for a
setting in normal form it always is. -/
theorem skipsBelow_outDir_iff {root : Text} {f : ProjectFile} {o : Overrides} {p : Project}
    (habs : isAbsolute root = true) (h : Project.resolve root f o = .ok p) :
    ((ofProject p).SkipsBelow p.outDir
      ↔ ¬ AtOrBelow p.outDir root ∧ (ofProject p).skipsPath p.outDir = true)
    ∧ (Text.startsWith p.outDirName ".//" = false →
      ((ofProject p).SkipsBelow p.outDir
        ↔ ∃ s ∈ landing p.outSegments, s = ("node_modules" : Text) ∨ Text.startsWith s "." = true
          ∨ p.outSegments.head? = some s))
    ∧ (IsPlain p.outDirName → (ofProject p).SkipsBelow p.outDir) := by
  obtain ⟨rfl, hp⟩ := resolve_checked h
  refine ⟨skipsBelow_outDir_iff_skipsPath habs hp, fun hstart => ?_,
    skipsBelow_outDir_of_isPlain habs hp⟩
  rw [skipsBelow_outDir_iff_exists habs hp hstart]
  exact exists_congr fun s => and_congr_right fun _ => skipsName_ofProject_iff

/-- An output directory that is not in normal form and still begins as it is spelled. -/
theorem skipsBelow_outDir_respelled :
    ∃ p, Project.resolve "/proj" { ProjectFile.empty with outDir := "dist/../dist/app" }
        ⟨false, [], .one⟩ = .ok p
      ∧ p.outDir = ("/proj/dist/app" : Text) ∧ (ofProject p).SkipsBelow p.outDir := by
  have hok : ∃ p, Project.resolve "/proj"
      { ProjectFile.empty with outDir := "dist/../dist/app" } ⟨false, [], .one⟩ = .ok p
      ∧ p.outDir = ("/proj/dist/app" : Text) ∧ p.outDirName = ("dist/../dist/app" : Text) :=
    ⟨_, rfl, by decide, by decide⟩
  obtain ⟨p, hp, hout, hname⟩ := hok
  refine ⟨p, hp, hout, ((skipsBelow_outDir_iff (by decide) hp).2.1 ?_).2 ⟨"dist", ?_⟩⟩
  · rw [hname]
    decide
  · rw [outSegments, hname]
    decide

/-- Settings are accepted whose output directory is watched: the first piece of `./out` is no name
on the way to what is written. -/
theorem not_skipsBelow_outDir :
    ∃ p, Project.resolve "/proj" { ProjectFile.empty with outDir := "./out" }
        ⟨false, [], .one⟩ = .ok p
      ∧ p.outDir = ("/proj/out" : Text)
      ∧ AtOrBelow p.outDir "/proj/out/app.js"
      ∧ (ofProject p).skipsPath "/proj/out/app.js" = false
      ∧ ¬ (ofProject p).SkipsBelow p.outDir := by
  have hok : ∃ p, Project.resolve "/proj" { ProjectFile.empty with outDir := "./out" }
        ⟨false, [], .one⟩ = .ok p
      ∧ p.outDir = ("/proj/out" : Text) ∧ (ofProject p).skipsPath "/proj/out/app.js" = false :=
    ⟨_, rfl, by decide, by decide⟩
  obtain ⟨p, hp, hout, hseen⟩ := hok
  have hbelow : AtOrBelow p.outDir "/proj/out/app.js" := by
    rw [hout]
    exact Or.inr ⟨"app.js", by decide, by decide⟩
  refine ⟨p, hp, hout, hbelow, hseen, fun hall => ?_⟩
  rw [hall _ hbelow] at hseen
  cases hseen

/-! ### What a build writes -/

/-- What may be written lies in the output directory. -/
lemma atOrBelow_join_outDir {p : Project} {path : Text} (habs : isAbsolute p.root = true)
    (hp : Checked p) (hpath : outputFlaw? path = none) :
    AtOrBelow p.outDir (Path.join [p.outDir, path]) := by
  have hres := resolved_targetSegments p
  rw [habs] at hres
  have hnames : ∀ s ∈ p.targetSegments ++ landing (Text.split Byte.slash path), IsName s :=
    List.forall_mem_append.2 ⟨hres.isName, fun _ hs =>
      isName_of_mem_landing (fun _ hx => no_slash_of_mem_split hx) hs⟩
  rw [join_outDir_eq_spell hp hpath, outDir_eq_spell hp, habs]
  exact (atOrBelow_spell_iff hres.isName hnames (clean_spell_true hnames)).2
    (List.prefix_append _ _)

/-- Where the output directory is passed over, nothing that a build writes sets off another. -/
theorem skipsPath_of_mem_written {tools : Build.Tools} {input : Build.Input}
    {file : Except FileError Text} {project : Project} {m : Memory} {locked : Bool} {path : Text}
    (habs : isAbsolute input.dir = true) (hset : Build.settings input file = .ok project)
    (hskips : (ofProject project).SkipsBelow project.outDir)
    (h : path ∈ (Build.run tools input file ⟨.memory m, locked⟩).written) :
    (ofProject project).skipsPath (Path.join [project.outDir, path]) = true := by
  obtain ⟨hroot, hp⟩ := Build.settings_checked hset
  rw [← hroot] at habs
  exact hskips _ (atOrBelow_join_outDir habs hp (Build.outputFlaw?_of_mem_written hset h))

end WatchFilter

end MiniProgram
