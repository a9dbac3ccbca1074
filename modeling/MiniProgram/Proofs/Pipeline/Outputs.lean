import MiniProgram.Proofs.Build.Effect
import MiniProgram.Proofs.Graph.Closure
import MiniProgram.Proofs.Output
import MiniProgram.Proofs.Pipeline.Trace
import MiniProgram.Proofs.RenameRules.FinalForm
import MiniProgram.Proofs.Stage.Emission
import MiniProgram.Proofs.Stage.Layout
import MiniProgram.Proofs.Text.Search

/-!
Which of the files of a build are written to paths of their own.

Modules are compared with each other when they are renamed, and a file that is emitted takes the
place of one emitted before under its path, so within these two kinds no path is written twice; the
same follows for source maps, and for the stylesheets of a bundle that was made from sources.
Nothing compares a module with a source map, a stylesheet or an emitted file.

* `emitAll_eq_ok`: what is emitted, and where.
* `assets_placed_styled`: where the stylesheet of a style module is written.
* `nodup_written_iff`: a build writes every path once exactly if its kinds of files are apart.
* `exists_written_twice`: a stylesheet that is lost because another is written to its path.
* `Build.nodup_written_run_iff`: the same for a build, which starts from its own seed.
-/

namespace MiniProgram

open MiniProgram.Path

/-! ### Emitting -/

namespace Emit

variable {p : Platform} {b b' : Bundle} {pages : List Entry}

/-- Where the templates of pages are written: each beside its page. -/
def templatePaths (p : Platform) (b : Bundle) (pages : List Entry) : List Text :=
  pages.filterMap fun page =>
    (b.get? page.path).map fun m => templatePath m.path p.templateExt

/-- The paths of all that is emitted for a bundle, in order: the base template, the templates of the
pages, the manifest. -/
def outputPaths (p : Platform) (b : Bundle) (pages : List Entry) : List Text :=
  basePath p :: templatePaths p b pages ++ [("app.json" : Text)]

/-- The templates are written where those of the modules of the pages are. -/
lemma templatePaths_eq (p : Platform) (b : Bundle) (pages : List Entry) :
    templatePaths p b pages
      = (pageModules b pages).map fun m => templatePath m.path p.templateExt := by
  rw [templatePaths, pageModules, List.map_filterMap]

/-- Of the files emitted for one path only the last is left, in the place of the first. -/
lemma paths_foldl_emit (hb : b.files = []) (assets : List Asset) :
    (assets.foldl Bundle.emit b).files.map (·.path) = (assets.map (·.path)).eraseDups := by
  induction assets using List.reverseRecOn with
  | nil => simp [hb]
  | append_singleton assets a ih =>
      rw [List.foldl_concat, Bundle.paths_emit, ih, List.map_append, List.map_singleton]
      by_cases hmem : a.path ∈ assets.map (·.path)
      · rw [if_pos (List.mem_eraseDups.2 hmem), eraseDups_concat_of_mem hmem]
      · rw [if_neg (mt List.mem_eraseDups.1 hmem), eraseDups_concat_of_not_mem hmem]

/-- What is left of what is emitted for a bundle. -/
theorem emitAll_eq_ok (h : emitAll p pages b = .ok b') (hb : b.files = []) :
    b'.modules = b.modules ∧ (b'.files.map (·.path)).Nodup
      ∧ (∀ page ∈ pages, ∃ m, b.get? page.path = some m)
      ∧ b'.files.map (·.path) = (outputPaths p b pages).eraseDups := by
  obtain ⟨hms, rfl⟩ := emitAll_eq_ok_iff.1 h
  have houtputs : (outputs p b pages).map (·.path) = outputPaths p b pages := by
    simp [outputs, outputPaths, templatePaths_eq, baseFile, pageFile, manifestFile,
      Function.comp_def]
  exact ⟨Bundle.modules_foldl_emit _ _, Bundle.nodup_paths_foldl_emit _ (by simp [hb]), hms,
    houtputs ▸ paths_foldl_emit hb _⟩

end Emit

/-! ### The last stages -/

namespace Stage

open Pipeline Layout

variable {filter : DiagnosticFilter} {deps : Deps} {project : Project} {s : Stage}
  {state next : State} {m : Module}

/-- A module after stylesheets were converted. -/
def styled (project : Project) (m : Module) : Module :=
  if !m.seed && Content.styleExts.contains (ext (normalize m.path)) then
    Content.convertStyle project m
  else m

lemma convertStyle_fields (project : Project) (m : Module) :
    (Content.convertStyle project m).id = m.id ∧ (Content.convertStyle project m).path = m.path
      ∧ (Content.convertStyle project m).kind = m.kind
      ∧ (Content.convertStyle project m).seed = m.seed
      ∧ (Content.convertStyle project m).renamed = m.renamed := by
  rw [Content.convertStyle]
  split_ifs <;> simp

/-- Converting a stylesheet changes neither what it is nor where it is written. -/
lemma styled_fields (project : Project) (m : Module) :
    (styled project m).id = m.id ∧ (styled project m).path = m.path
      ∧ (styled project m).kind = m.kind ∧ (styled project m).seed = m.seed
      ∧ (styled project m).renamed = m.renamed := by
  rw [styled]
  split_ifs
  · exact convertStyle_fields project m
  · exact ⟨rfl, rfl, rfl, rfl, rfl⟩

@[simp] lemma styled_id (project : Project) (m : Module) : (styled project m).id = m.id :=
  (styled_fields project m).1

@[simp] lemma styled_seed (project : Project) (m : Module) : (styled project m).seed = m.seed :=
  (styled_fields project m).2.2.2.1

/-- What converting stylesheets comes to. -/
lemma style_eq_ok (hp : deps.project = some project) (h : Stage.style deps = .ok s)
    (hrun : (runStage filter s state).result = .ok next) :
    next.bundle.modules = state.bundle.modules.map (styled project)
      ∧ next.bundle.files = state.bundle.files := by
  obtain ⟨project', hp', h⟩ := bind_eq_ok.1 h
  obtain rfl := Deps.needProject_eq_ok hp hp'
  cases h
  obtain ⟨b, -, htransform, hfinish⟩ := runStage_eq_ok hrun
  cases hfinish
  refine ⟨?_, ?_⟩
  · exact modules_of_transformAll (fun _ => rfl) (fun m => (convertStyle_fields project m).1)
      htransform
  · obtain ⟨-, hb⟩ := transformAll_eq_ok.1 htransform
    rw [← hb, Bundle.files_foldl_put]

/-- Giving modules their paths emits nothing. -/
lemma rename_files (h : Stage.rename deps = .ok s)
    (hrun : (runStage filter s state).result = .ok next) :
    next.bundle.files = state.bundle.files := by
  obtain ⟨project, -, h⟩ := bind_eq_ok.1 h
  simp only at h
  split at h
  · cases h
  cases h
  obtain ⟨b, -, htransform, hfinish⟩ := runStage_eq_ok hrun
  obtain ⟨-, rfl⟩ := transformAll_eq_ok.1 htransform
  rw [files_linkAll hfinish, Bundle.files_foldl_put]

/-- What emitting comes to. -/
lemma template_eq_ok (hp : deps.project = some project) (h : Stage.template deps = .ok s)
    (hrun : (runStage filter s state).result = .ok next) :
    ∃ catalog registry platform, deps.catalog = some catalog ∧ deps.registry = some registry
      ∧ registry.platform project.platform = .ok platform
      ∧ Emit.emitAll platform catalog.pages state.bundle = .ok next.bundle := by
  obtain ⟨project', catalog, registry, platform, hp', hcatalog, hregistry, hplatform, rfl⟩ :=
    template_eq_ok_iff.1 h
  obtain rfl : project = project' := Option.some.inj (hp.symm.trans hp')
  obtain ⟨b, -, htransform, hfinish⟩ := runStage_eq_ok hrun
  cases htransform
  exact ⟨catalog, registry, platform, hcatalog, hregistry, hplatform, hfinish⟩

/-! ### Stylesheets -/

/-- Where the stylesheet of a style module is written, given the path of its script. -/
def sheetPath (path : Text) : Text := Text.trimEnd path ".js" ++ ".acss"

lemma eq_of_sheetPath_eq {p q : Text} (hp : (".js" : Text) <:+ p) (hq : (".js" : Text) <:+ q)
    (h : sheetPath p = sheetPath q) : p = q := by
  obtain ⟨stem, rfl⟩ := hp
  obtain ⟨stem', rfl⟩ := hq
  rw [sheetPath, sheetPath, Text.trimEnd_append, Text.trimEnd_append,
    List.append_cancel_right_eq] at h
  rw [h]

/-- A stylesheet is not named like a source map. -/
lemma sheetPath_ne_append_map {p q : Text} : sheetPath p ≠ q ++ ".map" := by
  intro h
  have hlast := congrArg List.getLast? h
  have hsheet : (".acss" : Text).getLast? = some 115 := by decide
  have hmap : (".map" : Text).getLast? = some 112 := by decide
  rw [sheetPath, List.getLast?_append, List.getLast?_append, hsheet, hmap] at hlast
  cases hlast

/-- The stylesheet of a style module, before it is renamed. -/
lemma assets_styled (hm : m.Fresh) (hseed : m.seed = false) :
    (styled project m).assets.map (·.path)
      = if m.kind = .styleModule then [Text.trimEnd m.id ".less" ++ ".css"] else [] := by
  split_ifs with hkind
  · have hexts : Content.styleExts.contains (ext (normalize m.path)) = true := by
      rw [hm.path_eq, hm.normal, hm.kind_iff.1 hkind]
      decide
    rw [styled, if_pos (by rw [hexts, hseed]; rfl), Content.convertStyle]
    simp [hkind, hm.assets, hm.path_eq]
  · rw [styled]
    split_ifs <;> simp [Content.convertStyle, hkind, hm.assets]

/-- Renaming a module renames its assets with it. -/
lemma placed_of_unrenamed (rules : RenameRules) (hseed : m.seed = false)
    (hrenamed : m.renamed = false) :
    (placed rules m).path = rules.apply m.path
      ∧ (placed rules m).assets.map (·.path) = (m.assets.map (·.path)).map rules.apply := by
  simp [placed, Module.rename, hseed, hrenamed]

/-- **Where the stylesheet of a style module is written.** A module that was read lies at its
renamed path; if it is a style module that is a script, with its stylesheet beside it, and else it
has no assets. -/
theorem assets_placed_styled (hrules : project.renameRules.Tidy) (hm : m.Fresh)
    (hseed : m.seed = false) :
    let m' := placed project.renameRules (styled project m)
    m'.path = project.renameRules.apply m.id
      ∧ (m'.kind = .styleModule → (".js" : Text) <:+ m'.path)
      ∧ m'.assets.map (·.path) = if m'.kind = .styleModule then [sheetPath m'.path] else [] := by
  obtain ⟨-, hpath, hkind, hseed', hrenamed⟩ := styled_fields project m
  obtain ⟨hplaced, hassets⟩ := placed_of_unrenamed project.renameRules (hseed'.trans hseed)
    (hrenamed.trans hm.renamed)
  rw [hpath, hm.path_eq] at hplaced
  rw [assets_styled hm hseed] at hassets
  dsimp only
  rw [placed_kind, hkind, hassets, hplaced]
  refine ⟨rfl, ?_⟩
  by_cases hstyle : m.kind = .styleModule
  · -- both are named after the same stem, which renaming strips in the same way
    obtain ⟨stem, hstem⟩ : (".less" : Text) <:+ m.id := hm.kind_iff.1 hstyle ▸ ext_suffix m.id
    have hscript : project.renameRules.apply (stem ++ ".less")
        = RenameRules.stripAll project.renameRules stem ++ ".js" :=
      RenameRules.apply_append (r := .swapping ".less" ".js") hrules
        (RenameRules.mem_standard.2 (Or.inr (by decide))) (by decide)
        (RenameRules.eq_of_suffix_standard (by decide)) stem
    have hsheet : project.renameRules.apply (stem ++ ".css")
        = RenameRules.stripAll project.renameRules stem ++ ".acss" :=
      RenameRules.apply_append (r := .swapping ".css" ".acss") hrules
        (RenameRules.mem_standard.2 (Or.inr (by decide))) (by decide)
        (RenameRules.eq_of_suffix_standard (by decide)) stem
    rw [if_pos hstyle, if_pos hstyle, ← hstem, hscript, sheetPath, Text.trimEnd_append]
    refine ⟨fun _ => List.suffix_append _ _, ?_⟩
    rw [Text.trimEnd_append, List.map_singleton, hsheet]
  · rw [if_neg hstyle, if_neg hstyle]
    exact ⟨fun h => absurd h hstyle, rfl⟩

end Stage

/-! ### Modules that refer to nothing -/

/-- A bundle of modules that refer to no other. -/
def Bundle.Unlinked (b : Bundle) : Prop :=
  ∀ m ∈ b.modules, m.imports = [] ∧ (m.kind = .script → Script.scanImports m.content = [])

/-- A bundle of modules that refer to nothing is complete. -/
lemma Graph.walk_of_unlinked {r : Resolver} {kindOf : Text → EntryKind} {b : Bundle}
    (hb : b.Unlinked) (seen : List Text) {queue : List Text} (hqueue : ∀ id ∈ queue, id ∈ b.ids) :
    walk r kindOf ⟨b, queue, seen⟩ = some (.ok b) := by
  induction queue with
  | nil => rw [walk]
  | cons id queue ih =>
      obtain ⟨m, hget⟩ := Bundle.mem_ids_iff.1 (hqueue id (by simp))
      have hm := (Bundle.get?_eq_some_iff.1 hget).1
      obtain ⟨himports, hscan⟩ := hb m hm
      have hback : b.put { m with imports := [] } = b := by
        rw [← himports]
        exact Bundle.put_of_mem hm
      have hvisit : visit r kindOf ⟨b, queue, seen⟩ id = .ok ⟨b, queue, seen⟩ := by
        rw [visit, hget, Option.getD_some]
        split_ifs with hkind
        · rfl
        · rw [hscan (not_not.1 hkind)]
          change Outcome.ok (Walk.mk (b.put { m with imports := [] }) queue seen) = _
          rw [hback]
      rw [walk]
      simp only [hvisit]
      change (walk r kindOf ⟨b, queue, seen⟩ >>= _) = _
      rw [ih fun id' hid' => hqueue id' (by simp [hid'])]
      rfl

/-! ### Files of a build -/

namespace Pipeline

open Stage Layout Output

variable {root : Text} {f : ProjectFile} {o : Overrides} {project : Project} {deps : Deps}
  {dev : Bool} {stages : List Stage} {filter : DiagnosticFilter} {calledOff : Option ℕ}
  {fs : FileSystem} {seeds : List Module} {b : Bundle}

/-- A build, traced from the modules it has read to what it emits: the modules are converted, given
their paths without a clash and linked, those that only served to build the graph are taken out, and
nothing is emitted before. -/
lemma exists_of_run (hp : deps.project = some project) (hstages : assemble dev deps = .ok stages)
    (hrun : (run filter calledOff stages fs seeds).result = .ok b) :
    ∃ (read ms : List Module) (laidOut : Bundle) (catalog : Catalog) (registry : Registry)
      (platform : Platform),
      (∀ m ∈ read, (∀ m ∈ seeds, m.Fresh) → m.Fresh)
      ∧ ms = read.map (fun m => placed project.renameRules (styled project m))
      ∧ clash? [] ms = none
      ∧ laidOut.modules = (ms.filter fun m => !isScaffold m).map (relinked ms)
      ∧ laidOut.files = []
      ∧ deps.catalog = some catalog ∧ deps.registry = some registry
      ∧ registry.platform project.platform = .ok platform
      ∧ Emit.emitAll platform catalog.pages laidOut = .ok b := by
  obtain ⟨front, s₁, s₂, s₃, s₄, rfl, hfront, h₁, h₂, h₃, h₄⟩ := split_of_assemble hp hstages
  -- the stages before the conversion of styles read modules and leave them fresh
  have hkeeps : ∀ s ∈ front, s.Keeps fun m => (∀ m ∈ seeds, m.Fresh) → m.Fresh := by
    intro s hs
    obtain ⟨name, hname, hmake⟩ := hfront s hs
    exact keeps_of_make (Module.stable_fresh.imp _) hname hmake
  have hseeds : ∀ m ∈ (Bundle.ofModules seeds).modules, (∀ m ∈ seeds, m.Fresh) → m.Fresh := by
    intro m hm hfresh
    rcases Bundle.mem_of_mem_foldl_put hm with hm | hm
    · exact hfresh m hm
    · cases hm
  obtain ⟨mid, hmid, hfiles, hrun⟩ := exists_of_runFrom_append hkeeps hseeds (runFrom_of_ok hrun)
  obtain ⟨next₁, hrun₁, hrun⟩ := runFrom_cons_eq_ok.1 hrun
  obtain ⟨next₂, hrun₂, hrun⟩ := runFrom_cons_eq_ok.1 hrun
  obtain ⟨next₃, hrun₃, hrun⟩ := runFrom_cons_eq_ok.1 hrun
  obtain ⟨next₄, hrun₄, hrun⟩ := runFrom_cons_eq_ok.1 hrun
  cases hrun
  obtain ⟨hstyled, hfiles₁⟩ := style_eq_ok hp h₁ hrun₁
  obtain ⟨hclash, hmodules, -⟩ := layout_eq_ok hp h₂ h₃
    (runFrom_cons_eq_ok.2 ⟨next₂, hrun₂, runFrom_cons_eq_ok.2 ⟨next₃, hrun₃, rfl⟩⟩) rfl
  rw [hstyled, List.map_map] at hclash hmodules
  -- none of the stages before the last emits a file
  have hnone : next₃.bundle.files = [] := by
    rw [files_stripAll (strip_eq_ok h₃ hrun₃), rename_files h₂ hrun₂, hfiles₁, hfiles]
    exact Bundle.files_foldl_put _ _
  obtain ⟨catalog, registry, platform, hcatalog, hregistry, hplatform, hemit⟩ :=
    template_eq_ok hp h₄ hrun₄
  exact ⟨mid.bundle.modules, _, next₃.bundle, catalog, registry, platform, hmid, rfl, hclash,
    hmodules, hnone, hcatalog, hregistry, hplatform, hemit⟩

/-- What a build comes to, as far as paths are concerned: modules have paths of their own and so
have emitted files; and if it started from modules as they are read, assets are the stylesheets of
style modules. -/
structure Placed (deps : Deps) (project : Project) (fresh : Prop) (b : Bundle) : Prop where
  modules : (modulePaths b).Nodup
  emitted : (emittedPaths b).Nodup
  emittedPaths_eq : ∃ catalog registry platform, deps.catalog = some catalog
    ∧ deps.registry = some registry ∧ registry.platform project.platform = .ok platform
    ∧ (∀ page ∈ catalog.pages, ∃ m, b.get? page.path = some m)
    ∧ emittedPaths b = (Emit.outputPaths platform b catalog.pages).eraseDups
  assets : fresh → ∀ m ∈ b.modules, m.path = project.renameRules.apply m.id
    ∧ (m.kind = .styleModule → (".js" : Text) <:+ m.path)
    ∧ m.assets.map (·.path) = if m.kind = .styleModule then [sheetPath m.path] else []

/-- Every build comes to that. -/
theorem placed_of_run (hproject : Project.resolve root f o = .ok project)
    (hp : deps.project = some project) (hstages : assemble dev deps = .ok stages)
    (hrun : (run filter calledOff stages fs seeds).result = .ok b) :
    Placed deps project (∀ m ∈ seeds, m.Fresh) b := by
  obtain ⟨read, ms, laidOut, catalog, registry, platform, hread, hms, hclash, hmodules, hfiles,
    hcatalog, hregistry, hplatform, hemit⟩ := exists_of_run hp hstages hrun
  obtain ⟨hsame, hemitted, hfound, hpaths⟩ := Emit.emitAll_eq_ok hemit hfiles
  have hget : ∀ id, laidOut.get? id = b.get? id := by
    intro id
    rw [Bundle.get?_eq_find?, Bundle.get?_eq_find?, hsame]
  -- emitting changes no module, so what is said of the layout is said of the result
  simp only [Emit.outputPaths, Emit.templatePaths, hget] at hfound hpaths
  rw [hmodules] at hsame
  refine ⟨?_, hemitted,
    ⟨catalog, registry, platform, hcatalog, hregistry, hplatform, hfound, hpaths⟩, ?_⟩
  · have hpath : (fun m : Module => m.path) ∘ relinked ms = fun m => m.path := by
      funext m
      simp
    rw [modulePaths, hsame, List.map_map, hpath]
    exact nodup_path_of_clash? hclash
  · intro hfresh m hm
    rw [hsame] at hm
    obtain ⟨m', hm', rfl⟩ := List.mem_map.1 hm
    obtain ⟨hm', hscaffold⟩ := List.mem_filter.1 hm'
    rw [hms] at hm'
    obtain ⟨x, hx, rfl⟩ := List.mem_map.1 hm'
    have hkept : isScaffold (placed project.renameRules (styled project x)) = false := by
      simpa using hscaffold
    have hseed : x.seed = false := by
      simpa using seed_eq_false_of_isScaffold hkept
    have hrules := Project.tidy_renameRules (Project.resolve_checked hproject).2
    simpa using assets_placed_styled hrules (hread x hx hfresh) hseed

/-- Stylesheets have paths of their own, and none is that of a source map. -/
lemma Placed.nodup_assetPaths {fresh : Prop} (h : Placed deps project fresh b) (hfresh : fresh) :
    assetPaths b = (b.modules.filter (·.kind = .styleModule)).map (fun m => sheetPath m.path)
      ∧ (assetPaths b).Nodup ∧ (mapPaths b).Disjoint (assetPaths b) := by
  have hsheets : assetPaths b
      = (b.modules.filter (·.kind = .styleModule)).map fun m => sheetPath m.path := by
    have hone : assetPaths b = b.modules.flatMap fun m =>
        if decide (m.kind = .styleModule) then [sheetPath m.path] else [] := by
      refine List.flatMap_congr fun m hm => ?_
      simpa using (h.assets hfresh m hm).2.2
    rw [hone, flatMap_ite, List.map_eq_flatMap]
  refine ⟨hsheets, ?_, ?_⟩
  · have hpaths : (((b.modules.filter (·.kind = .styleModule)).map (·.path))).Nodup :=
      h.modules.sublist (List.filter_sublist.map _)
    rw [hsheets]
    refine hpaths.of_map.map_on fun m hm m' hm' heq => List.inj_on_of_nodup_map hpaths hm hm' ?_
    rw [List.mem_filter, decide_eq_true_iff] at hm hm'
    exact eq_of_sheetPath_eq ((h.assets hfresh m hm.1).2.1 hm.2)
      ((h.assets hfresh m' hm'.1).2.1 hm'.2) heq
  · rw [hsheets]
    intro q hq hq'
    obtain ⟨m, -, rfl⟩ := List.mem_map.1 hq
    obtain ⟨m', -, heq⟩ := List.mem_map.1 hq'
    exact sheetPath_ne_append_map heq

/-- What is written twice, if anything, among the files of such a bundle. -/
lemma Placed.nodup_written {fresh : Prop} (h : Placed deps project fresh b) {fs' : FileSystem}
    {outDir : Text} (hwrite : (write fs' outDir b).failure = none) :
    (write fs' outDir b).paths.Nodup
      ↔ (assetPaths b).Nodup ∧ (mapPaths b).Disjoint (assetPaths b) ∧ Apart b := by
  rw [paths_write hwrite]
  exact nodup_files_iff h.modules h.emitted

/-- From modules as they are read, only files of different kinds can meet. -/
lemma Placed.nodup_written_of_fresh {fresh : Prop} (h : Placed deps project fresh b)
    (hfresh : fresh) {fs' : FileSystem} {outDir : Text}
    (hwrite : (write fs' outDir b).failure = none) :
    (write fs' outDir b).paths.Nodup ↔ Apart b := by
  obtain ⟨-, hassets, hmaps⟩ := h.nodup_assetPaths hfresh
  rw [h.nodup_written hwrite]
  exact ⟨fun h => h.2.2, fun h => ⟨hassets, hmaps, h⟩⟩

/-! ### A build of one page -/

/-- A development build of modules that refer to nothing runs from where contents are changed. -/
lemma run_of_unlinked (hp : deps.project = some project) (hvisits : deps.visits = none)
    (h : assemble true deps = .ok stages) (hseeds : (Bundle.ofModules seeds).Unlinked) :
    ∃ rest, (order.drop 3).mapM (make makers deps) = .ok rest
      ∧ ((runFrom filter none ⟨fs, Bundle.ofModules seeds⟩ rest).result = .ok b →
        (run filter none stages fs seeds).result = .ok b) := by
  have hnames : names true = ("progress" : Text) :: "resolve" :: order.drop 3 := by decide
  have hmade := mapM_make_of_assemble hp h
  rw [hnames] at hmade
  obtain ⟨s₁, _, rfl, h₁, hmade⟩ := mapM_cons_eq_ok hmade
  obtain ⟨s₂, rest, rfl, h₂, hmade⟩ := mapM_cons_eq_ok hmade
  have hs₁ : Stage.progress deps = .ok s₁ := maker_eq_ok rfl h₁
  have hs₂ : Stage.resolve deps = .ok s₂ := maker_eq_ok rfl h₂
  refine ⟨rest, hmade, fun hrun => ?_⟩
  -- the progress stage puts every module back as it was
  have hprogress : (runStage filter s₁ ⟨fs, Bundle.ofModules seeds⟩).result
      = .ok ⟨fs, Bundle.ofModules seeds⟩ := by
    have hsame : ∀ s, (transformAll s .ok (Bundle.ofModules seeds)).result
        = .ok (Bundle.ofModules seeds) := by
      intro s
      refine transformAll_eq_ok.2 ⟨fun m _ => rfl, Bundle.foldl_put_of_forall_mem fun m hm => ?_⟩
      obtain ⟨m', hm', rfl⟩ := List.mem_map.1 hm
      exact (List.mem_filter.1 hm').1
    cases hs₁
    simp only [runStage, hsame]
    rfl
  -- the walk takes every identifier and finds nothing to follow
  have hresolve : (runStage filter s₂ ⟨fs, Bundle.ofModules seeds⟩).result
      = .ok ⟨fs, Bundle.ofModules seeds⟩ := by
    obtain ⟨project', -, hs₂⟩ := bind_eq_ok.1 hs₂
    obtain ⟨-, -, hs₂⟩ := bind_eq_ok.1 hs₂
    cases hs₂
    show ((Graph.completeWithin _ _ _ (Bundle.ofModules seeds)).result.mapError _).map _ = _
    rw [hvisits, Graph.completeWithin, Graph.complete, Graph.Walk.start,
      Graph.walk_of_unlinked hseeds _ fun _ hid => hid]
    rfl
  exact runFrom_cons_eq_ok.2 ⟨_, hprogress, runFrom_cons_eq_ok.2 ⟨_, hresolve, hrun⟩⟩

/-- The parts of a build with one page, whose scripts are left as they are. -/
def onePageDeps (project : Project) : Deps :=
  ⟨some project, some ⟨[⟨"src/pages/index/index.tsx", .page⟩]⟩, some Registry.standard, true,
    some fun request => .ok ⟨request.source, []⟩, none⟩

/-- A page with a style module and a plain stylesheet beside it. -/
def pageWithSheet (sheet : Text) : List Module :=
  [{ Module.ofSource "src/pages/index/index.tsx" "export default 1;\n" with entry := .page },
    .ofSource "src/pages/index/a.less" [], .ofSource ("src/pages/index/" ++ sheet) []]

lemma unlinked_pageWithSheet {sheet : Text}
    (hkind : (Module.ofSource ("src/pages/index/" ++ sheet) []).kind ≠ .script) :
    (Bundle.ofModules (pageWithSheet sheet)).Unlinked := by
  intro m hm
  rcases Bundle.mem_of_mem_foldl_put hm with hm | hm
  · simp only [pageWithSheet, List.mem_cons, List.not_mem_nil, or_false] at hm
    rcases hm with rfl | rfl | rfl
    · refine ⟨rfl, fun _ => ?_⟩
      change Script.scanImports "export default 1;\n" = []
      rw [Script.scanImports, List.mergeSort_of_pairwise (by decide +kernel)]
      decide +kernel
    · exact ⟨rfl, fun h => absurd h (by decide)⟩
    · exact ⟨rfl, fun h => absurd h hkind⟩
  · cases hm

/-- The paths of a bundle, kind by kind. -/
def pathsByKind (b : Bundle) : List (List Text) :=
  [modulePaths b, mapPaths b, assetPaths b, emittedPaths b]

/-- The paths that a development build of a page with a stylesheet comes to. -/
def builtPaths (sheet : Text) : Except Failure (List (List Text)) := do
  let project ← (Project.resolve "/proj" .empty ⟨false, [], .one⟩).mapError (·.failure)
  let _ ← assemble true (onePageDeps project)
  let rest ← (order.drop 3).mapM (make makers (onePageDeps project))
  (runFrom .standard none ⟨⟨.memory .empty, false⟩, .ofModules (pageWithSheet sheet)⟩
    rest).result.map pathsByKind

/-- Such a build is written if none of its paths is refused. -/
lemma exists_build {sheet : Text} {paths : List (List Text)}
    (hkind : (Module.ofSource ("src/pages/index/" ++ sheet) []).kind ≠ .script)
    (hpaths : builtPaths sheet = .ok paths) (hflaws : ∀ p ∈ paths.flatten, outputFlaw? p = none) :
    ∃ project stages b, Project.resolve "/proj" .empty ⟨false, [], .one⟩ = .ok project
      ∧ assemble true (onePageDeps project) = .ok stages
      ∧ (run .standard none stages ⟨.memory .empty, false⟩ (pageWithSheet sheet)).result = .ok b
      ∧ pathsByKind b = paths
      ∧ (write ⟨.memory .empty, false⟩ project.outDir b).failure = none := by
  obtain ⟨project, hproject, hpaths⟩ := bind_eq_ok.1 hpaths
  obtain ⟨stages, hstages, hpaths⟩ := bind_eq_ok.1 hpaths
  obtain ⟨rest, hrest, hpaths⟩ := bind_eq_ok.1 hpaths
  obtain ⟨b, hb, rfl⟩ := map_eq_ok.1 hpaths
  obtain ⟨rest', hrest', hrun⟩ := run_of_unlinked (b := b) rfl rfl hstages
    (unlinked_pageWithSheet hkind)
  rw [hrest] at hrest'
  cases hrest'
  refine ⟨project, stages, b, mapError_eq_ok.1 hproject, hstages, hrun hb, rfl, ?_⟩
  refine failure_writeFiles_memory _ _ _ _ fun a ha => hflaws a.path ?_
  have hmem := (perm_files b).mem_iff.1 (List.mem_map_of_mem ha)
  simpa [pathsByKind, or_assoc] using hmem

/-! ### Written once -/

/-- **When a build writes every path once.** A successful build that is written without a failure
has written every path once exactly if its assets have paths of their own, apart from those of the
source maps, and no two of the other kinds of files meet. If the build started from modules as they
are read, the assets are the stylesheets of style modules, which never meet each other or a source
map; so all depends on how the modules that were found are named. -/
theorem nodup_written_iff (hproject : Project.resolve root f o = .ok project)
    (hp : deps.project = some project) (hstages : assemble dev deps = .ok stages)
    (hrun : (run filter calledOff stages fs seeds).result = .ok b) {fs' : FileSystem}
    {outDir : Text} (hwrite : (write fs' outDir b).failure = none) :
    ((write fs' outDir b).paths.Nodup
      ↔ (assetPaths b).Nodup ∧ (mapPaths b).Disjoint (assetPaths b) ∧ Apart b)
    ∧ ((∀ m ∈ seeds, m.Fresh) →
      ((write fs' outDir b).paths.Nodup ↔ Apart b)
        ∧ (∀ m ∈ b.modules, m.path = project.renameRules.apply m.id)
        ∧ assetPaths b
          = (b.modules.filter (·.kind = .styleModule)).map fun m => sheetPath m.path)
    ∧ ∃ catalog registry platform, deps.catalog = some catalog
      ∧ deps.registry = some registry ∧ registry.platform project.platform = .ok platform
      ∧ (∀ page ∈ catalog.pages, ∃ m, b.get? page.path = some m)
      ∧ emittedPaths b = (Emit.outputPaths platform b catalog.pages).eraseDups := by
  have h := placed_of_run hproject hp hstages hrun
  refine ⟨h.nodup_written hwrite, fun hfresh => ?_, h.emittedPaths_eq⟩
  exact ⟨h.nodup_written_of_fresh hfresh hwrite, fun m hm => (h.assets hfresh m hm).1,
    (h.nodup_assetPaths hfresh).1⟩

/-- A style module and a stylesheet of different names: everything is written once. -/
theorem nodup_written_iff_separate :
    ∃ project stages b, Project.resolve "/proj" .empty ⟨false, [], .one⟩ = .ok project
      ∧ assemble true (onePageDeps project) = .ok stages
      ∧ (run .standard none stages ⟨.memory .empty, false⟩ (pageWithSheet "b.css")).result = .ok b
      ∧ (write ⟨.memory .empty, false⟩ project.outDir b).failure = none
      ∧ assetPaths b = ["pages/index/a.acss"]
      ∧ (write ⟨.memory .empty, false⟩ project.outDir b).paths.Nodup := by
  have hpaths : builtPaths "b.css"
      = .ok [["pages/index/index.js", "pages/index/a.js", "pages/index/b.acss"],
        ["pages/index/index.js.map", "pages/index/a.js.map"], ["pages/index/a.acss"],
        ["base.ttml", "pages/index/index.ttml", "app.json"]] := by decide +kernel
  obtain ⟨project, stages, b, hproject, hstages, hrun, hkinds, hwrite⟩ :=
    exists_build (by decide) hpaths (by decide +kernel)
  obtain ⟨hmodules, hmaps, hassets, hemitted⟩ : modulePaths b = _ ∧ mapPaths b = _
      ∧ assetPaths b = _ ∧ emittedPaths b = _ := by simpa [pathsByKind] using hkinds
  have hfresh : ∀ m ∈ pageWithSheet "b.css", m.Fresh := by
    intro m hm
    simp only [pageWithSheet, List.mem_cons, List.not_mem_nil, or_false] at hm
    rcases hm with rfl | rfl | rfl
    · exact Module.stable_fresh.same (Module.stable_fresh.source "src/pages/index/index.tsx" [])
        ⟨rfl, rfl, rfl, rfl, rfl⟩
    · exact Module.stable_fresh.source _ _
    · exact Module.stable_fresh.source _ _
  have hapart : Apart b := by
    constructor <;> rw [List.disjoint_iff_ne] <;> simp only [hmodules, hmaps, hassets, hemitted]
      <;> decide
  have hnodup := ((nodup_written_iff hproject rfl hstages hrun hwrite).2.1 hfresh).1.2 hapart
  exact ⟨project, stages, b, hproject, hstages, hrun, hwrite, hassets, hnodup⟩

/-- **A stylesheet that is lost.** A style module and a stylesheet of the same name are both written
to one path, and nothing fails. -/
theorem exists_written_twice :
    ∃ project stages b, Project.resolve "/proj" .empty ⟨false, [], .one⟩ = .ok project
      ∧ assemble true (onePageDeps project) = .ok stages
      ∧ (run .standard none stages ⟨.memory .empty, false⟩ (pageWithSheet "a.css")).result = .ok b
      ∧ (write ⟨.memory .empty, false⟩ project.outDir b).failure = none
      ∧ (write ⟨.memory .empty, false⟩ project.outDir b).paths.count
        ("pages/index/a.acss" : Text) = 2
      ∧ ¬ (write ⟨.memory .empty, false⟩ project.outDir b).paths.Nodup := by
  have hpaths : builtPaths "a.css"
      = .ok [["pages/index/index.js", "pages/index/a.js", "pages/index/a.acss"],
        ["pages/index/index.js.map", "pages/index/a.js.map"], ["pages/index/a.acss"],
        ["base.ttml", "pages/index/index.ttml", "app.json"]] := by decide +kernel
  obtain ⟨project, stages, b, hproject, hstages, hrun, hkinds, hwrite⟩ :=
    exists_build (by decide) hpaths (by decide +kernel)
  obtain ⟨hmodules, hmaps, hassets, hemitted⟩ : modulePaths b = _ ∧ mapPaths b = _
      ∧ assetPaths b = _ ∧ emittedPaths b = _ := by simpa [pathsByKind] using hkinds
  have hperm : (write ⟨.memory .empty, false⟩ project.outDir b).paths.Perm
      (modulePaths b ++ mapPaths b ++ assetPaths b ++ emittedPaths b) := by
    rw [paths_write hwrite]
    exact perm_files b
  refine ⟨project, stages, b, hproject, hstages, hrun, hwrite, ?_, ?_⟩
  · rw [hperm.count_eq, hmodules, hmaps, hassets, hemitted]
    decide
  · rw [hperm.nodup_iff, hmodules, hmaps, hassets, hemitted]
    decide

end Pipeline

namespace Build

variable {tools : Tools} {input : Input} {file : Except FileError Text} {fs : FileSystem}
  {p : Plan} {b : Bundle}

/-- A build starts from its own seed, which is a module as it is read. So a build that succeeds has
written every path once exactly if no two kinds of its files meet. -/
theorem nodup_written_run_iff (hplan : plan tools input file fs = .ok p)
    (hb : bundled tools input file fs = .ok b) (hok : (run tools input file fs).succeeded = true) :
    (run tools input file fs).written.Nodup ↔ Output.Apart b := by
  obtain ⟨hset, -, deps, hdeps, hstages⟩ := plan_eq_ok hplan
  obtain ⟨f, -, hproject⟩ := bind_eq_ok.1 hset
  rw [mapError_eq_ok] at hproject
  rw [bundled, hplan] at hb
  have hplaced := Pipeline.placed_of_run hproject hdeps hstages hb
  have hfresh : ∀ m ∈ [p.catalog.seed [p.project.runtimeModule]], m.Fresh := by
    simpa using p.catalog.fresh_seed _
  set ran := Pipeline.run .standard input.calledOff.stages p.stages fs
    [p.catalog.seed [p.project.runtimeModule]] with hran
  have hresult : ran.result = .ok b := hb
  have hwritten : (run tools input file fs).written
        = (Output.write ran.fs p.project.outDir b).paths
      ∧ (run tools input file fs).failure = (Output.write ran.fs p.project.outDir b).failure := by
    rw [run, hplan]
    simp only [carryOut, ← hran, hresult, and_self]
  rw [Result.succeeded, Option.isNone_iff_eq_none, hwritten.2] at hok
  rw [hwritten.1]
  exact hplaced.nodup_written_of_fresh hfresh hok

end Build

end MiniProgram
