import MiniProgram.Proofs.Build.Frame
import MiniProgram.Proofs.Catalog
import MiniProgram.Proofs.Graph.Run

/-!
The entries of a program under a build.

The settings keep the output directory from being the root of the project, but they do not compare
it with the source directory or the pages. An output directory that holds an entry is accepted, and
a build then removes or overwrites the entry it is to build from.

* `normal_of_discover`: entries are known by normal paths.
* `covers_outDir_iff`: when the output directory holds a path, in terms of the setting.
* `get?_entry_iff`: which entries a build leaves as they are.
* `run_removes_entry`: a build that removes its only entry, and then does not find it.
-/

namespace MiniProgram

open MiniProgram.Path

/-! ### Entries -/

namespace Build

variable {tools : Tools} {input : Input} {file : Except FileError Text} {project : Project}
  {catalog : Catalog} {fs : FileSystem}

lemma normal_of_discover (h : discover fs project = .ok catalog) :
    ∀ e ∈ catalog.entries, e.path ≠ [] ∧ normalize e.path = e.path := by
  obtain ⟨tree, -, h⟩ := bind_eq_ok.1 h
  rw [withContext_eq_ok, mapError_eq_ok] at h
  obtain ⟨list, hlist, -⟩ := Catalog.exists_ofEntries_of_discover h
  exact Catalog.normal_of_ofEntries hlist

end Build

/-! ### Paths in the output directory -/

namespace Project

open Memory

variable {p : Project} {path : Text}

/-- The key of a plain path below the root. -/
lemma key_join_root (hp : Checked p) (hpath : IsPlain path) :
    key (Path.join [p.root, path]) = Text.join [Byte.slash]
      (cleanSegments (isAbsolute p.root) (Text.split Byte.slash p.root)
        ++ Text.split Byte.slash path) := by
  have hnames := hpath.isName
  have hsegs : cleanSegments (isAbsolute p.root)
      (Text.split Byte.slash p.root ++ Text.split Byte.slash path)
        = cleanSegments (isAbsolute p.root) (Text.split Byte.slash p.root)
          ++ Text.split Byte.slash path := by
    rw [cleanSegments, List.foldl_append, foldl_pushSegment_of_isName hnames, List.reverse_append,
      List.reverse_reverse, cleanSegments]
  have hne : cleanSegments (isAbsolute p.root) (Text.split Byte.slash p.root)
      ++ Text.split Byte.slash path ≠ [] :=
    List.append_ne_nil_of_right_ne_nil _ (Text.split_ne_nil _ _)
  have hres : Resolved (isAbsolute p.root)
      (cleanSegments (isAbsolute p.root) (Text.split Byte.slash p.root)) :=
    resolved_cleanSegments _ fun _ hx => no_slash_of_mem_split hx
  rw [join_eq_spell hp.root_ne_nil, hsegs, key_spell (hres.append hnames) hne]
  cases habs : isAbsolute p.root with
  | true => exact Or.inl rfl
  | false =>
      rw [habs] at hsegs hne
      rw [hsegs]
      exact Or.inr hne

/-- An output directory that does not climb holds a plain path if its normal form does. -/
theorem covers_outDir_iff (hp : Checked p) (hpath : IsPlain path)
    (hstart : Text.startsWith p.outDirName ".//" = false) :
    covers (key p.outDir) (key (Path.join [p.root, path]))
      = covers (normalize p.outDirName) path := by
  obtain ⟨hclimb, hland⟩ := climbs_and_landing hp
  have hs := no_slash_of_mem_outSegments p
  have hzero : climbs p.outSegments = 0 := by
    rw [hstart] at hclimb
    exact hclimb.resolve_right Bool.false_ne_true
  have hout : normalize p.outDirName = Text.join [Byte.slash] (landing p.outSegments) := by
    rw [normalize_outDirName hp, hstart, (cleanSegments_eq hs).1, hzero]
    rfl
  have htarget : p.targetSegments = cleanSegments (isAbsolute p.root)
      (Text.split Byte.slash p.root) ++ landing p.outSegments := by
    rw [targetSegments, cleanSegments, List.foldl_append, foldl_pushSegment_eq _ _ hs, hzero,
      List.replicate_zero, List.foldl_nil, List.reverse_append, List.reverse_reverse, cleanSegments]
  have hroot : ∀ x ∈ cleanSegments (isAbsolute p.root) (Text.split Byte.slash p.root),
      Byte.slash ∉ x :=
    (resolved_cleanSegments _ fun _ hx => no_slash_of_mem_split hx).no_slash
  have hlanding : ∀ x ∈ landing p.outSegments, Byte.slash ∉ x :=
    fun _ hx => (isName_of_mem_landing hs hx).no_slash
  have hsplit : ∀ x ∈ Text.split Byte.slash path, Byte.slash ∉ x :=
    fun _ hx => no_slash_of_mem_split hx
  -- both sides compare the names below the root
  rw [Bool.eq_iff_iff, key_outDir hp, key_join_root hp hpath, htarget, hout]
  conv_rhs => rw [← Text.join_split Byte.slash path]
  rw [covers_join_iff, covers_join_iff, List.prefix_append_right_inj]
  · exact hland
  · exact hlanding
  · exact Text.split_ne_nil _ _
  · exact hsplit
  · exact List.append_ne_nil_of_right_ne_nil _ hland
  · exact fun x hx => (List.mem_append.1 hx).elim (hroot x) (hlanding x)
  · exact List.append_ne_nil_of_right_ne_nil _ (Text.split_ne_nil _ _)
  · exact fun x hx => (List.mem_append.1 hx).elim (hroot x) (hsplit x)

end Project

/-! ### A build that loses its entry -/

/-- A walk from one script ends where its first import is relative and leads nowhere. -/
lemma Graph.complete_error {r : Resolver} (kindOf : Text → EntryKind) {m : Module}
    {spec : Text} {specs : List Text} (hkind : m.kind = .script)
    (hscan : Script.scanImports m.content = spec :: specs) (hrel : Script.isRelative spec = true)
    (hres : r.resolve m.id spec = none) :
    ∃ f, (Graph.complete r kindOf (Bundle.ofModules [m])).result = .error f := by
  have hget : (Bundle.ofModules [m]).get? m.id = some m := by
    simp [Bundle.get?_eq_find?]
  have hvisit : ∃ f, (Graph.visit r kindOf ⟨Bundle.ofModules [m], [], [m.id]⟩ m.id).result
      = .error f := by
    have hfollow : Graph.follow r kindOf m.id ([], ⟨Bundle.ofModules [m], [], [m.id]⟩) spec
        = .fail (.plain (m.id ++ ": could not resolve " ++ Text.quote spec)) := by
      simp [Graph.follow, hres, hrel]
    simp only [Graph.visit, hget, Option.getD_some, hkind, ne_eq, not_true_eq_false, if_false,
      hscan, List.foldlM_cons, hfollow]
    exact ⟨_, rfl⟩
  obtain ⟨f, hf⟩ := hvisit
  have hstart : Graph.Walk.start (Bundle.ofModules [m])
      = ⟨Bundle.ofModules [m], [m.id], [m.id]⟩ := by
    simp [Graph.Walk.start, Bundle.ids]
  have hwalk : ∃ o : Outcome Bundle, Graph.walk r kindOf (Graph.Walk.start (Bundle.ofModules [m]))
      = some o ∧ o.result = .error f := by
    rw [hstart, Graph.walk]
    simp only [hf]
    exact ⟨_, rfl, rfl⟩
  obtain ⟨o, ho, hres⟩ := hwalk
  exact ⟨f, by rw [Graph.complete, ho, Option.getD_some, hres]⟩

lemma Graph.completeWithin_error (visits : Option ℕ) {r : Resolver} (kindOf : Text → EntryKind)
    {m : Module} {spec : Text} {specs : List Text} (hkind : m.kind = .script)
    (hscan : Script.scanImports m.content = spec :: specs) (hrel : Script.isRelative spec = true)
    (hres : r.resolve m.id spec = none) :
    ∃ f, (Graph.completeWithin visits r kindOf (Bundle.ofModules [m])).result = .error f := by
  cases hwithin : (Graph.completeWithin visits r kindOf (Bundle.ofModules [m])).result with
  | error f => exact ⟨f, rfl⟩
  | ok b =>
      obtain ⟨f, hf⟩ := Graph.complete_error kindOf hkind hscan hrel hres
      rw [Graph.complete_of_completeWithin hwithin] at hf
      cases hf

namespace Pipeline

variable {deps : Deps} {project : Project} {s : Stage}

/-- The stages that a production build begins with. -/
lemma assemble_false_eq_ok {stages : List Stage} (hp : deps.project = some project)
    (h : assemble false deps = .ok stages) :
    ∃ s₁ s₂ s₃ rest, stages = s₁ :: s₂ :: s₃ :: rest ∧ Stage.clean deps = .ok s₁
      ∧ Stage.progress deps = .ok s₂ ∧ Stage.resolve deps = .ok s₃ := by
  have hnames : names false = ("clean" : Text) :: "progress" :: "resolve" :: order.drop 3 := by
    decide
  have hmade := mapM_make_of_assemble hp h
  rw [hnames] at hmade
  obtain ⟨s₁, _, rfl, h₁, hmade⟩ := mapM_cons_eq_ok hmade
  obtain ⟨s₂, _, rfl, h₂, hmade⟩ := mapM_cons_eq_ok hmade
  obtain ⟨s₃, rest, rfl, h₃, -⟩ := mapM_cons_eq_ok hmade
  obtain ⟨maker₁, hl₁, hs₁⟩ := make_eq_ok h₁
  obtain ⟨maker₂, hl₂, hs₂⟩ := make_eq_ok h₂
  obtain ⟨maker₃, hl₃, hs₃⟩ := make_eq_ok h₃
  cases hl₁
  cases hl₂
  cases hl₃
  exact ⟨s₁, s₂, s₃, rest, rfl, hs₁, hs₂, hs₃⟩

lemma runStage_progress (filter : DiagnosticFilter) (h : Stage.progress deps = .ok s)
    (fs : FileSystem) {m : Module} (hseed : m.seed = true) :
    (runStage filter s ⟨fs, Bundle.ofModules [m]⟩).result = .ok ⟨fs, Bundle.ofModules [m]⟩ := by
  cases h
  have hnone : ∀ s : Stage, included s (Bundle.ofModules [m]) = [] := by
    intro s
    simp [included, hseed]
  simp only [runStage, transformAll, hnone]
  rfl

lemma runStage_resolve (filter : DiagnosticFilter) (hp : deps.project = some project)
    (h : Stage.resolve deps = .ok s) {fs : FileSystem} {m : Module} {spec : Text}
    {specs : List Text} (hkind : m.kind = .script)
    (hscan : Script.scanImports m.content = spec :: specs) (hrel : Script.isRelative spec = true)
    (hres : (⟨fs, project.root, project.dedupe⟩ : Resolver).resolve m.id spec = none) :
    ∃ f, (runStage filter s ⟨fs, Bundle.ofModules [m]⟩).result = .error f := by
  obtain ⟨project', hp', h⟩ := bind_eq_ok.1 h
  obtain ⟨-, -, h⟩ := bind_eq_ok.1 h
  obtain rfl := Deps.needProject_eq_ok hp hp'
  cases h
  obtain ⟨f, hf⟩ := Graph.completeWithin_error deps.visits (fun path =>
    (deps.catalog.map (·.kind path)).getD .none) hkind hscan hrel hres
  refine ⟨f.atStage "resolve" [], ?_⟩
  show ((Graph.completeWithin _ _ _ (Bundle.ofModules [m])).result.mapError _).map _ = _
  rw [hf]
  rfl

/-- A production build fails if the first import of its seed is relative and cannot be resolved once
the output directory is empty. -/
theorem run_error_of_unresolved (filter : DiagnosticFilter) {stages : List Stage}
    (hp : deps.project = some project) (h : assemble false deps = .ok stages) (m : Memory)
    {seed : Module} {spec : Text} {specs : List Text} (hseed : seed.seed = true)
    (hkind : seed.kind = .script) (hscan : Script.scanImports seed.content = spec :: specs)
    (hrel : Script.isRelative spec = true)
    (hres : (⟨⟨.memory (m.removeAll project.outDir), false⟩, project.root, project.dedupe⟩
      : Resolver).resolve seed.id spec = none) :
    ∃ f, (run filter none stages ⟨.memory m, false⟩ [seed]).result = .error f := by
  obtain ⟨s₁, s₂, s₃, rest, rfl, h₁, h₂, h₃⟩ := assemble_false_eq_ok hp h
  have hclean := (runStage_clean filter hp h₁ m false (Bundle.ofModules [seed])).1 rfl
  have hprogress := runStage_progress filter h₂ ⟨.memory (m.removeAll project.outDir), false⟩ hseed
  obtain ⟨f, hf⟩ := runStage_resolve filter hp h₃ hkind hscan hrel hres
  exact ⟨f, by simp [run, runFrom, hclean, hprogress, hf]⟩

end Pipeline

/-! ### Entries under a build -/

namespace Build

open Memory

variable {tools : Tools} {input : Input} {file : Except FileError Text} {project : Project}
  {catalog : Catalog}

/-- The key under which an entry of a project is stored. -/
def entryKey (project : Project) (e : Entry) : Text := key (Path.join [project.root, e.path])

/-- **What a build does to an entry.** One outside the output directory is left as it is. One in it
is overwritten with an output file if the build writes to its place, and is else lost exactly in a
build that empties the output directory. For an output directory that does not begin with `.//`,
whether it holds the entry can be read off the normal form of the setting. -/
theorem get?_entry_iff (tools : Tools) (hset : settings input file = .ok project) (m : Memory)
    (locked : Bool) (hcat : discover ⟨.memory m, locked⟩ project = .ok catalog) {e : Entry}
    (he : e ∈ catalog.entries) :
    ∃ m', (run tools input file ⟨.memory m, locked⟩).fs = ⟨.memory m', locked⟩
      ∧ (covers (key project.outDir) (entryKey project e) = false →
        m'.get? (entryKey project e) = m.get? (entryKey project e))
      ∧ (entryKey project e ∈ writtenKeys (run tools input file ⟨.memory m, locked⟩) project →
        covers (key project.outDir) (entryKey project e) = true
          ∧ ∃ b, bundled tools input file ⟨.memory m, locked⟩ = .ok b ∧ ∃ a ∈ Output.files b,
            key (Path.join [project.outDir, a.path]) = entryKey project e
              ∧ m'.get? (entryKey project e) = some a.content)
      ∧ (entryKey project e ∉ writtenKeys (run tools input file ⟨.memory m, locked⟩) project →
        (m'.get? (entryKey project e) = m.get? (entryKey project e)
          ↔ covers (key project.outDir) (entryKey project e) = false
            ∨ empties tools input file ⟨.memory m, locked⟩ = false
            ∨ m.get? (entryKey project e) = none))
      ∧ (Text.startsWith project.outDirName ".//" = false →
        (".." : Text) ∉ Text.split Byte.slash e.path →
        covers (key project.outDir) (entryKey project e)
          = covers (Path.normalize project.outDirName) e.path) := by
  obtain ⟨m', hfs, hwritten, hrest, -⟩ := get?_run tools hset m locked
  obtain ⟨hne, hnormal⟩ := normal_of_discover hcat e he
  refine ⟨m', hfs, ?_, fun hmem => ⟨covers_of_mem_writtenKeys hset hmem, hwritten _ hmem⟩, ?_, ?_⟩
  · intro hcov
    have hnot : entryKey project e
        ∉ writtenKeys (run tools input file ⟨.memory m, locked⟩) project := by
      intro hmem
      rw [covers_of_mem_writtenKeys hset hmem] at hcov
      cases hcov
    simp [hrest _ hnot, hcov]
  · intro hnot
    rw [hrest _ hnot]
    cases covers (key project.outDir) (entryKey project e) with
    | false => simp
    | true =>
        cases empties tools input file ⟨.memory m, locked⟩ with
        | false => simp
        | true => simp [eq_comm]
  · intro hstart hparent
    exact Project.covers_outDir_iff (settings_checked hset).2 ⟨hne, hnormal, hparent⟩ hstart

/-- A page is kept although the output directory lies beside its own and its name begins with the
same letters. -/
theorem get?_entry_beside :
    ∃ project catalog,
      settings ⟨"/proj", false, false, [], .one, .never⟩ (.ok "outDir: src/pages/in\n")
        = .ok project
      ∧ discover ⟨.memory ⟨[("proj/src/pages/index/index.tsx", "export default 1;\n")]⟩, false⟩
          project = .ok catalog
      ∧ ∃ e ∈ catalog.entries, ∃ m',
        (run ⟨Registry.standard, fun r => .ok ⟨r.source, []⟩⟩
            ⟨"/proj", false, false, [], .one, .never⟩ (.ok "outDir: src/pages/in\n")
            ⟨.memory ⟨[("proj/src/pages/index/index.tsx", "export default 1;\n")]⟩, false⟩).fs
          = ⟨.memory m', false⟩
        ∧ m'.get? (entryKey project e) = some "export default 1;\n" := by
  set tools : Tools := ⟨Registry.standard, fun r => .ok ⟨r.source, []⟩⟩
  set input : Input := ⟨"/proj", false, false, [], .one, .never⟩
  set file : Except FileError Text := .ok "outDir: src/pages/in\n"
  set m : Memory := ⟨[("proj/src/pages/index/index.tsx", "export default 1;\n")]⟩
  have hparts : (plan tools input file ⟨.memory m, false⟩).map (fun p =>
      (p.project.root, p.project.outDir, p.catalog))
        = .ok ("/proj", "/proj/src/pages/in", ⟨[⟨"src/pages/index/index.tsx", .page⟩]⟩) := by
    decide +kernel
  obtain ⟨p, hplan, hparts⟩ := map_eq_ok.1 hparts
  simp only [Prod.mk.injEq] at hparts
  obtain ⟨hroot, hout, hcatalog⟩ := hparts
  obtain ⟨hset, hcat, -⟩ := plan_eq_ok hplan
  have he : ⟨"src/pages/index/index.tsx", .page⟩ ∈ p.catalog.entries := by simp [hcatalog]
  obtain ⟨m', hfs, hkept, -⟩ := get?_entry_iff tools hset m false hcat he
  refine ⟨p.project, p.catalog, hset, hcat, _, he, m', hfs, ?_⟩
  rw [entryKey, hroot, hout] at hkept
  rw [entryKey, hroot, hkept (by decide)]
  decide

/-- A project whose output directory is its source directory is accepted; a production build of it
removes the page it is to build. -/
theorem run_removes_entry :
    ∃ project catalog,
      settings ⟨"/proj", false, false, [], .one, .never⟩ (.ok "outDir: src\n") = .ok project
      ∧ discover ⟨.memory ⟨[("proj/src/pages/index/index.tsx", "export default 1;\n")]⟩, false⟩
          project = .ok catalog
      ∧ ∃ e ∈ catalog.entries,
        get? ⟨[("proj/src/pages/index/index.tsx", "export default 1;\n")]⟩ (entryKey project e)
          = some "export default 1;\n"
        ∧ ∃ m', (run ⟨Registry.standard, fun r => .ok ⟨r.source, []⟩⟩
            ⟨"/proj", false, false, [], .one, .never⟩ (.ok "outDir: src\n")
            ⟨.memory ⟨[("proj/src/pages/index/index.tsx", "export default 1;\n")]⟩, false⟩).fs
            = ⟨.memory m', false⟩
          ∧ m'.get? (entryKey project e) = none := by
  set tools : Tools := ⟨Registry.standard, fun r => .ok ⟨r.source, []⟩⟩
  set input : Input := ⟨"/proj", false, false, [], .one, .never⟩
  set file : Except FileError Text := .ok "outDir: src\n"
  set m : Memory := ⟨[("proj/src/pages/index/index.tsx", "export default 1;\n")]⟩
  have hparts : (plan tools input file ⟨.memory m, false⟩).map (fun p =>
      (p.project.root, p.project.outDir, p.project.runtimeModule, p.project.dedupe, p.catalog))
        = .ok ("/proj", "/proj/src", "remax", ["react"],
          ⟨[⟨"src/pages/index/index.tsx", .page⟩]⟩) := by
    decide +kernel
  obtain ⟨p, hplan, hparts⟩ := map_eq_ok.1 hparts
  simp only [Prod.mk.injEq] at hparts
  obtain ⟨hroot, hout, hruntime, hdedupe, hcatalog⟩ := hparts
  obtain ⟨hset, hcat, deps, hdeps, hstages⟩ := plan_eq_ok hplan
  have hscan : Script.scanImports (p.catalog.seed [p.project.runtimeModule]).content
      = ["./src/pages/index/index.tsx", "remax"] := by
    rw [hcatalog, hruntime, Script.scanImports, List.mergeSort_of_pairwise (by decide +kernel)]
    decide +kernel
  -- the entry is gone when its import is followed, so nothing is written
  have hfails : ∃ f, bundled tools input file ⟨.memory m, false⟩ = .error f := by
    rw [bundled, hplan]
    refine Pipeline.run_error_of_unresolved .standard hdeps hstages m (by simp) (by simp) hscan
      (by decide) ?_
    rw [hout, hroot, hdedupe, Catalog.id_seed]
    decide +kernel
  obtain ⟨f, hf⟩ := hfails
  have hempties : empties tools input file ⟨.memory m, false⟩ = true := by
    rw [empties, hplan]
    rfl
  obtain ⟨m', hfs, hwritten, hrest, -⟩ := get?_run tools hset m false
  have hnot : ∀ k, k ∉ writtenKeys (run tools input file ⟨.memory m, false⟩) p.project := by
    intro k hk
    obtain ⟨b, hb, -⟩ := hwritten k hk
    rw [hb] at hf
    cases hf
  refine ⟨p.project, p.catalog, hset, hcat, ⟨"src/pages/index/index.tsx", .page⟩, ?_, ?_, m', hfs,
    ?_⟩
  · simp [hcatalog]
  · rw [entryKey, hroot]
    decide
  · rw [hrest _ (hnot _), hempties, hout, entryKey, hroot]
    decide

end Build

end MiniProgram
