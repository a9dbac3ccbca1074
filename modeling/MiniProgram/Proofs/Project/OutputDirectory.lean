import MiniProgram.Project
import MiniProgram.Proofs.Path.Clean

/-!
The output directory of a project.

The settings are checked on the normal form of the output directory, while the directory that is
emptied and written to is the root joined with the setting as it is spelled. The two agree unless
the setting begins with `.//`: taking off `./` then leaves a rooted path, on which parent references
at the front are dropped before they are looked at.

* `Checked`, `resolve_checked`: what the checks establish of a project.
* `exists_resolve_empty`: every default passes its check.
* `climbs_and_landing`: an accepted output directory goes down by at least one name, and climbs only
  if it begins with `.//`.
* `outDir_eq_spell`: so it is never the root of the file system.
* `join_outDir_eq_spell`: a path that may be written continues the names of the output directory.
* `strictlyBelow_outDir_iff`: when the output directory of an accepted project lies strictly below
  the root of the project.
-/

namespace MiniProgram

namespace Project

open MiniProgram.Path

/-! ### What the checks establish -/

/-- What the checks of the settings establish. -/
structure Checked (p : Project) : Prop where
  root_ne_nil : p.root ≠ []
  outDir_relative : isAbsolute p.outDirName = false
  outDir_stays : leavesRoot (normalize p.outDirName) = false
  sandbox_slash : p.sandboxPrefix = [] ∨ Text.endsWith p.sandboxPrefix "/" = true
  workers_pos : 0 < p.workers

/-- The checks on their own: what holds of settings in which no flaw is found. -/
lemma of_flaw?_eq_none {root policy outDir sourceDir sandbox : Text} {multiple : Binary64}
    {workers : Int} {pages : List Text}
    (h : flaw? root policy outDir sourceDir sandbox multiple workers pages = none) :
    root ≠ [] ∧ isAbsolute outDir = false ∧ leavesRoot (normalize outDir) = false
      ∧ (sandbox = [] ∨ Text.endsWith sandbox "/" = true) ∧ 0 < workers := by
  rw [flaw?] at h
  split_ifs at h with h1 h2 h3 h4 h5 h6 h7 h8
  refine ⟨h1, eq_false_of_ne_true h3, eq_false_of_ne_true h4, ?_, by omega⟩
  by_cases hs : sandbox = []
  · exact Or.inl hs
  · right
    simpa [hs] using h6

/-- The checks are passed by every project that settings are resolved to. -/
lemma resolve_checked {root : Text} {f : ProjectFile} {o : Overrides} {p : Project}
    (h : resolve root f o = .ok p) : p.root = root ∧ Checked p := by
  simp only [resolve] at h
  split at h
  · cases h
  · rename_i hflaw
    obtain ⟨h1, h2, h3, h4, h5⟩ := of_flaw?_eq_none hflaw
    cases h
    exact ⟨rfl, h1, h2, h3, h4, by simpa using h5⟩

/-- Every default passes its check: settings of which none is written are accepted under any root,
with as many workers as there are processors. -/
theorem exists_resolve_empty {root : Text} (hroot : root ≠ []) (o : Overrides) :
    ∃ p, resolve root .empty o = .ok p ∧ p.workers = o.processors.count := by
  have hpolicy : (UnknownProps.ofName? (if o.strict then "strict" else "drop")).isNone = false := by
    cases o.strict <;> decide
  have hworkers : ¬ (o.processors.count : Int) < 1 := by
    have := o.processors.pos
    omega
  have hflaw : flaw? root (if o.strict then "strict" else "drop") "dist" "src"
      RenameRules.sandboxPrefix (Binary64.ofInt 1) o.processors.count [] = none := by
    simp +decide [flaw?, hroot, hpolicy, hworkers]
  simp only [resolve]
  split
  · rename_i flaw hsome
    cases hsome.symm.trans hflaw
  · exact ⟨_, rfl, rfl⟩

variable {p : Project}

/-! ### The setting -/

/-- Names that are spelled from the front leave the root only if there are none. -/
lemma leavesRoot_join {names : List Text} (h : ∀ s ∈ names, IsName s) :
    leavesRoot (Text.join [Byte.slash] names) = false ↔ names ≠ [] := by
  constructor
  · rintro hl rfl
    exact absurd hl (by decide)
  · intro hne
    have hplain := isPlain_join hne h
    have hup : Text.join [Byte.slash] names ≠ (".." : Text) := by
      intro hj
      refine hplain.no_parent ?_
      rw [hj]
      decide
    have hstart : Text.startsWith (Text.join [Byte.slash] names) "../" = false := by
      rw [← Bool.not_eq_true, Text.startsWith_iff]
      rintro ⟨rest, hrest⟩
      refine hplain.no_parent ?_
      have hcons : ("../" : Text) ++ rest = (".." : Text) ++ Byte.slash :: rest := rfl
      rw [← hrest, hcons, Text.split_append]
      exact List.mem_append_left _ (by decide)
    simp [leavesRoot, hplain.ne_nil, hup, hstart]

/-- A path that begins with a parent reference leaves the root. -/
lemma leavesRoot_join_parent (rest : List Text) :
    leavesRoot (Text.join [Byte.slash] ((".." : Text) :: rest)) = true := by
  cases rest with
  | nil => decide
  | cons s rest =>
      have hstart : Text.startsWith
          (Text.join [Byte.slash] ((".." : Text) :: s :: rest)) "../" = true := by
        rw [Text.startsWith_iff, Text.join_cons (by simp)]
        exact List.prefix_append _ _
      simp [leavesRoot, hstart]

/-- The segments of the output directory as it is spelled. -/
abbrev outSegments (p : Project) : List Text := Text.split Byte.slash p.outDirName

lemma no_slash_of_mem_outSegments (p : Project) : ∀ x ∈ p.outSegments, Byte.slash ∉ x :=
  fun _ hx => no_slash_of_mem_split hx

/-- The normal form of the output directory, as the check sees it: a root in front of it is seen
where the setting begins with `.//`. -/
lemma normalize_outDirName (hp : Checked p) :
    normalize p.outDirName = Text.join [Byte.slash]
      (cleanSegments (Text.startsWith p.outDirName ".//") p.outSegments) := by
  rw [normalize_eq, cleanSegments_trimStart_dot, isAbsolute_trimStart_dot, hp.outDir_relative,
    Bool.false_or]

/-- Where the check sees no root, an accepted output directory does not climb and goes down by a
name; where it sees one, only the latter is certain. -/
lemma climbs_and_landing (hp : Checked p) :
    (climbs p.outSegments = 0 ∨ Text.startsWith p.outDirName ".//" = true)
      ∧ landing p.outSegments ≠ [] := by
  have hs := no_slash_of_mem_outSegments p
  obtain ⟨hform, hnames⟩ := cleanSegments_eq hs
  have hstays := hp.outDir_stays
  rw [normalize_outDirName hp] at hstays
  cases hroot : Text.startsWith p.outDirName ".//" with
  | false =>
      rw [hroot, hform] at hstays
      cases hc : climbs p.outSegments with
      | zero =>
          rw [hc, List.replicate_zero, List.nil_append, leavesRoot_join hnames] at hstays
          exact ⟨Or.inl rfl, hstays⟩
      | succ n =>
          rw [hc, List.replicate_succ, List.cons_append, leavesRoot_join_parent] at hstays
          cases hstays
  | true =>
      have hland : cleanSegments true p.outSegments = landing p.outSegments := by
        rw [cleanSegments, foldl_pushSegment_names (by simp) hs]
        simp
      rw [hroot, hland, leavesRoot_join hnames] at hstays
      exact ⟨Or.inr rfl, hstays⟩

/-! ### The directory -/

/-- The segments of the directory the output is written to. -/
def targetSegments (p : Project) : List Text :=
  cleanSegments (isAbsolute p.root) (Text.split Byte.slash p.root ++ p.outSegments)

lemma resolved_targetSegments (p : Project) : Resolved (isAbsolute p.root) p.targetSegments :=
  resolved_cleanSegments _ fun _ hx => no_slash_of_mem_append hx

/-- The output directory has a name of its own, so it is never the root of the file system. -/
lemma targetSegments_ne_nil (hp : Checked p) : p.targetSegments ≠ [] := by
  obtain ⟨dirs, hdirs⟩ := exists_cleanSegments_append (isAbsolute p.root)
    (Text.split Byte.slash p.root) (no_slash_of_mem_outSegments p)
  rw [targetSegments, hdirs]
  exact List.append_ne_nil_of_right_ne_nil _ (climbs_and_landing hp).2

theorem outDir_eq_spell (hp : Checked p) :
    p.outDir = spell (isAbsolute p.root) p.targetSegments := by
  rw [outDir, join_eq_spell hp.root_ne_nil, targetSegments]
  cases habs : isAbsolute p.root with
  | true => exact Or.inl rfl
  | false =>
      have h := targetSegments_ne_nil hp
      rw [targetSegments, habs] at h
      exact Or.inr h

/-- What may be written has no parent reference, so it stays below the output directory. -/
theorem join_outDir_eq_spell (hp : Checked p) {path : Text} (hpath : outputFlaw? path = none) :
    Path.join [p.outDir, path]
      = spell (isAbsolute p.root) (p.targetSegments ++ landing (Text.split Byte.slash path)) := by
  have hno : (".." : Text) ∉ Text.split Byte.slash path := by
    rw [outputFlaw?] at hpath
    split_ifs at hpath with _ _ hparent
    simpa using hparent
  have hres := resolved_targetSegments p
  have hs : ∀ x ∈ Text.split Byte.slash path, Byte.slash ∉ x := fun _ hx => no_slash_of_mem_split hx
  have habs : isAbsolute p.outDir = isAbsolute p.root := by
    rw [outDir_eq_spell hp, hres.isAbsolute_spell]
  have hne : p.outDir ≠ [] := by
    rw [outDir_eq_spell hp]
    exact hres.spell_ne_nil (targetSegments_ne_nil hp)
  -- without a parent reference nothing of the directory is climbed over
  have hsegs : cleanSegments (isAbsolute p.root)
      (Text.split Byte.slash p.outDir ++ Text.split Byte.slash path)
        = p.targetSegments ++ landing (Text.split Byte.slash path) := by
    rw [outDir_eq_spell hp, cleanSegments, List.foldl_append, foldl_split_spell hres.no_slash,
      foldl_pushSegment_eq _ _ hs, climbs_eq_zero hno hs, List.replicate_zero, List.foldl_nil,
      List.reverse_append, List.reverse_reverse, ← cleanSegments, hres.clean]
  rw [join_eq_spell hne, habs, hsegs]
  rw [habs]
  cases habs' : isAbsolute p.root with
  | true => exact Or.inl rfl
  | false =>
      rw [habs'] at hsegs
      rw [hsegs]
      exact Or.inr (List.append_ne_nil_of_left_ne_nil (targetSegments_ne_nil hp) _)

/-- **Where the output goes.** In an accepted project at an absolute root, the output directory lies
strictly below the root exactly if the names it goes down by properly continue the names of the root
it climbed over. It does so whenever its spelling does not begin with `.//`. -/
theorem strictlyBelow_outDir_iff {root : Text} {f : ProjectFile} {o : Overrides} {p : Project}
    (habs : isAbsolute root = true) (h : resolve root f o = .ok p) :
    (StrictlyBelow (clean root) p.outDir ↔ ∃ rest, rest ≠ []
      ∧ landing p.outSegments
        = (cleanSegments true (Text.split Byte.slash root)).rtake (climbs p.outSegments) ++ rest)
    ∧ (Text.startsWith p.outDirName ".//" = false → StrictlyBelow (clean root) p.outDir) := by
  obtain ⟨rfl, hp⟩ := resolve_checked h
  obtain ⟨hclimb, hland⟩ := climbs_and_landing hp
  set dirs := cleanSegments true (Text.split Byte.slash p.root) with hdirs
  have hs : ∀ x ∈ p.outSegments, Byte.slash ∉ x := no_slash_of_mem_outSegments p
  have hroot : clean p.root = spell true dirs := by
    rw [clean_eq_spell (Or.inl habs), habs]
  have hout : p.outDir
      = spell true (dirs.rdrop (climbs p.outSegments) ++ landing p.outSegments) :=
    join_of_isAbsolute habs p.outDirName
  have hnames : ∀ x ∈ dirs, IsName x :=
    isName_of_mem_cleanSegments fun x hx => no_slash_of_mem_split hx
  have hnames' : ∀ x ∈ dirs.rdrop (climbs p.outSegments) ++ landing p.outSegments, IsName x := by
    intro x hx
    rcases List.mem_append.1 hx with hx | hx
    · exact hnames x (List.mem_of_mem_take hx)
    · exact isName_of_mem_landing hs hx
  -- the directories that are not climbed over stand on both sides
  have hiff : StrictlyBelow (clean p.root) p.outDir ↔ ∃ rest, rest ≠ []
      ∧ landing p.outSegments = dirs.rtake (climbs p.outSegments) ++ rest := by
    rw [hroot, hout, strictlyBelow_spell_iff hnames hnames']
    refine exists_congr fun rest => and_congr_right fun _ => ?_
    have hcut : dirs.rdrop (climbs p.outSegments) ++ dirs.rtake (climbs p.outSegments) = dirs :=
      List.take_append_drop _ dirs
    conv_lhs => rhs; rw [← hcut]
    rw [List.append_assoc, List.append_cancel_left_eq]
  refine ⟨hiff, fun hstart => hiff.2 ⟨landing p.outSegments, hland, ?_⟩⟩
  have hzero : climbs p.outSegments = 0 := by
    refine hclimb.resolve_right fun hdot => ?_
    rw [hdot] at hstart
    cases hstart
  rw [hzero, List.rtake_zero, List.nil_append]

/-- An output directory that climbs out of the root and comes back to it. -/
theorem strictlyBelow_outDir_returning :
    ∃ p, resolve "/proj" { ProjectFile.empty with outDir := ".//../proj/out" }
        ⟨false, [], .one⟩ = .ok p
      ∧ StrictlyBelow (clean "/proj") p.outDir := by
  have hok : ∃ p, resolve "/proj" { ProjectFile.empty with outDir := ".//../proj/out" }
      ⟨false, [], .one⟩ = .ok p ∧ p.outDirName = (".//../proj/out" : Text) := ⟨_, rfl, by decide⟩
  obtain ⟨p, hp, hname⟩ := hok
  refine ⟨p, hp, (strictlyBelow_outDir_iff (by decide) hp).1.2 ⟨["out"], by decide, ?_⟩⟩
  rw [outSegments, hname]
  decide

/-- Settings are accepted that put the output beside the root, and others that put it into the root
itself. -/
theorem exists_outDir_not_below_root :
    (∃ p, resolve "/proj" { ProjectFile.empty with outDir := ".//../x" } ⟨false, [], .one⟩ = .ok p
      ∧ p.outDir = ("/x" : Text) ∧ ¬ StrictlyBelow (clean "/proj") p.outDir)
    ∧ ∃ p, resolve "/proj" { ProjectFile.empty with outDir := ".//../proj" }
        ⟨false, [], .one⟩ = .ok p
      ∧ p.outDir = clean "/proj" := by
  refine ⟨⟨_, rfl, by decide, ?_⟩, ⟨_, rfl, by decide⟩⟩
  rintro ⟨rest, -, hrest⟩
  have h : ("/proj/" : Text) <+: "/x" := ⟨rest, hrest.symm⟩
  exact absurd h (by decide)

end Project

end MiniProgram
