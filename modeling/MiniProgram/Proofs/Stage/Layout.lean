import MiniProgram.Proofs.Path.Relative
import MiniProgram.Proofs.Pipeline
import MiniProgram.Proofs.RenameRules

/-!
The layout of a bundle: renaming and stripping leave modules that are linked by their output paths.

Renaming changes modules where they stand, first their paths and then their imports; stripping takes
modules out. So the result is described by maps and a filter on the list of modules.

* `pairwise_of_clash?`: no two modules that are written share a path.
* `link_eq_keep`, `link_eq_point`: what becomes of an import.
* `rename_eq_ok`, `strip_eq_ok`: what the two stages come to when they succeed.
* `layout_linked`: in the result, paths are unique and every resolved import leads to its module.
-/

namespace MiniProgram

namespace Layout

open MiniProgram.Path

variable {ms : List Module} {packages : List (Text × Text)} {path : Text} {i : Import} {m : Module}

/-! ### Output paths -/

/-- Without a clash, a module that is written stands after no other with its path. -/
lemma pairwise_of_clash? {placed : List (Text × Text)} (h : clash? placed ms = none) :
    (∀ m ∈ ms, m.seed = false → placed.lookup m.path = none)
      ∧ ms.Pairwise fun m m' => m'.seed = false → m.path ≠ m'.path := by
  induction ms generalizing placed with
  | nil => simp
  | cons m ms ih =>
      have hhead : m.seed = false → placed.lookup m.path = none := by
        intro hseed
        by_contra hne
        obtain ⟨other, hother⟩ := Option.ne_none_iff_exists'.1 hne
        simp [clash?, hother, hseed] at h
      have htail : clash? ((m.path, m.id) :: placed) ms = none := by
        rw [clash?] at h
        split at h
        · cases h
        · exact h
      obtain ⟨hplaced, hpair⟩ := ih htail
      have hnew : ∀ m' ∈ ms, m'.seed = false → m.path ≠ m'.path ∧ placed.lookup m'.path = none := by
        intro m' hm' hseed
        have hlook := hplaced m' hm' hseed
        rw [List.lookup_cons] at hlook
        split at hlook
        · cases hlook
        · rename_i hbeq
          exact ⟨fun heq => by simp [heq] at hbeq, hlook⟩
      refine ⟨?_, List.pairwise_cons.2 ⟨fun m' hm' hseed => (hnew m' hm' hseed).1, hpair⟩⟩
      intro x hx hseed
      rcases List.mem_cons.1 hx with rfl | hx
      · exact hhead hseed
      · exact (hnew x hx hseed).2

/-- What is no scaffold is no seed. -/
lemma seed_eq_false_of_isScaffold (h : isScaffold m = false) : m.seed = false := by
  rw [isScaffold, Bool.or_eq_false_iff] at h
  exact h.1

/-- Without a clash, the modules that are left after stripping have paths of their own. -/
lemma nodup_path_of_clash? (h : clash? [] ms = none) :
    ((ms.filter fun m => !isScaffold m).map (·.path)).Nodup := by
  rw [List.Nodup, List.pairwise_map, List.pairwise_filter]
  refine (pairwise_of_clash? h).2.imp fun hne _ hm' => hne ?_
  exact seed_eq_false_of_isScaffold (by simpa using hm')

/-! ### Links -/

/-- An import stays as it is only if it stands for no module. -/
lemma link_eq_keep (h : link ms packages path i = .keep) (hres : i.resolved ≠ []) :
    ∀ m ∈ ms, m.id ≠ i.resolved := by
  rw [link, if_neg hres] at h
  cases hfind : ms.find? (·.id = i.resolved) with
  | none => simpa using hfind
  | some target =>
      simp only [hfind] at h
      split_ifs at h

/-- An import that is pointed at a module names it, and it is no plain stylesheet. -/
lemma link_eq_point {spec resolved : Text} (h : link ms packages path i = .point spec resolved) :
    ∃ target ∈ ms, target.id = resolved ∧ target.kind ≠ .style
      ∧ spec = relativeImport path target.path := by
  rw [link] at h
  split at h
  · cases h
  · rename_i target hfind
    by_cases hkind : target.kind = .style
    · rw [if_pos hkind] at h
      cases h
    rw [if_neg hkind] at h
    cases h
    have hid := List.find?_some hfind
    exact ⟨target, List.mem_of_find?_eq_some hfind, by simpa using hid, hkind, rfl⟩

/-- Where the imports of a linked module come from. -/
lemma mem_imports_relink (h : i ∈ (relink ms packages m).imports) :
    ∃ old ∈ m.imports, linked old (link ms packages m.path old) = some i := by
  rw [relink] at h
  obtain ⟨⟨old, l⟩, hmem, hlinked⟩ := List.mem_filterMap.1 h
  obtain ⟨old', hold, heq⟩ := List.mem_map.1 hmem
  cases heq
  exact ⟨old, hold, hlinked⟩

@[simp] lemma relink_id (ms : List Module) (packages : List (Text × Text)) (m : Module) :
    (relink ms packages m).id = m.id := by
  rw [relink]

/-- A module after its imports were looked at. -/
def relinked (ms : List Module) (m : Module) : Module :=
  if isLinked m then relink ms (seedPackages ms) m else m

section Relinked

variable (ms : List Module) (m : Module)

/-- Looking at the imports of a module changes neither what it is nor where it is written. -/
lemma relinked_fields :
    (relinked ms m).id = m.id ∧ (relinked ms m).path = m.path
      ∧ (relinked ms m).kind = m.kind ∧ (relinked ms m).seed = m.seed := by
  rw [relinked, relink]
  split_ifs <;> simp

@[simp] lemma relinked_id : (relinked ms m).id = m.id := (relinked_fields ms m).1

@[simp] lemma relinked_path : (relinked ms m).path = m.path := (relinked_fields ms m).2.1

@[simp] lemma relinked_kind : (relinked ms m).kind = m.kind := (relinked_fields ms m).2.2.1

@[simp] lemma relinked_seed : (relinked ms m).seed = m.seed := (relinked_fields ms m).2.2.2

@[simp] lemma relinked_assets : (relinked ms m).assets = m.assets := by
  rw [relinked, relink]
  split_ifs <;> rfl

@[simp] lemma isScaffold_relinked : isScaffold (relinked ms m) = isScaffold m := by
  simp [isScaffold]

end Relinked

/-- **Links of one module.** A resolved import of a linked module stands for a module that is no
plain stylesheet, by a specifier that leads to it. -/
theorem exists_target_of_mem_imports (hplain : ∀ m ∈ ms, IsPlain m.path) (hm : m ∈ ms)
    (hseed : m.seed = false)
    (hkind : m.imports ≠ [] → m.kind = .script ∨ m.kind = .styleModule)
    (hids : ∀ i ∈ m.imports, i.resolved ≠ [] → ∃ target ∈ ms, target.id = i.resolved)
    (hi : i ∈ (relinked ms m).imports) (hres : i.resolved ≠ []) :
    ∃ target ∈ ms, target.id = i.resolved ∧ target.kind ≠ .style
      ∧ Path.join [dir m.path, i.specifier] = target.path := by
  by_cases hne : m.imports = []
  · simp [relinked, isLinked, hne] at hi
  have hlinked : isLinked m = true := by simp [isLinked, hseed, hne, hkind hne]
  rw [relinked, if_pos hlinked] at hi
  obtain ⟨old, hold, heq⟩ := mem_imports_relink hi
  cases hl : link ms (seedPackages ms) m.path old with
  | keep =>
      rw [hl] at heq
      cases heq
      obtain ⟨target, htarget, hid⟩ := hids i hold hres
      exact absurd hid (link_eq_keep hl hres target htarget)
  | drop =>
      rw [hl] at heq
      cases heq
  | point spec resolved =>
      rw [hl] at heq
      cases heq
      obtain ⟨target, htarget, hid, hstyle, rfl⟩ := link_eq_point hl
      have htargetPlain := hplain target htarget
      have hlead := join_dir_relativeImport (hplain m hm)
        (htargetPlain.normal.symm ▸ htargetPlain.ne_nil)
      exact ⟨target, htarget, hid, hstyle, hlead.trans htargetPlain.normal⟩

/-! ### Stripping -/

/-- What stripping comes to: the modules that are no scaffold, none of which imports one. -/
lemma stripAll_eq_ok {b b' : Bundle} (h : (stripAll b).result = .ok b') :
    b'.modules = b.modules.filter (fun m => !isScaffold m)
      ∧ ∀ m ∈ b'.modules, ∀ i ∈ m.imports, ∀ gone ∈ b.modules, isScaffold gone = true →
        gone.id ≠ i.resolved := by
  -- an identifier names one module, so none is removed besides the scaffolds
  have hgone : ∀ m ∈ b.modules,
      (m.id ∈ (b.modules.filter isScaffold).map (·.id) ↔ isScaffold m = true) := by
    intro m hm
    constructor
    · intro hid
      obtain ⟨gone, hmem, heq⟩ := List.mem_map.1 hid
      obtain ⟨hmem, hscaffold⟩ := List.mem_filter.1 hmem
      rwa [← Bundle.eq_of_id_eq hmem hm heq]
    · exact fun hscaffold => List.mem_map_of_mem (List.mem_filter.2 ⟨hm, hscaffold⟩)
  have hrest : (((b.modules.filter isScaffold).map (·.id)).foldl Bundle.remove b).modules
      = b.modules.filter (fun m => !isScaffold m) := by
    rw [Bundle.modules_foldl_remove]
    refine List.filter_congr fun m hm => ?_
    rw [decide_not, Bool.eq_iff_iff.2 (decide_eq_true_iff.trans (hgone m hm))]
  rw [stripAll] at h
  split at h
  · cases h
  · rename_i hbroken
    cases h
    refine ⟨hrest, fun m hm i hi gone hmem hscaffold heq => ?_⟩
    rw [List.findSome?_eq_none_iff] at hbroken
    have hfind := hbroken m hm
    rw [Option.map_eq_none_iff, List.find?_eq_none] at hfind
    refine hfind i hi ?_
    rw [← heq, List.contains_iff_mem]
    exact (hgone gone hmem).2 hscaffold

/-! ### Linking -/

/-- What linking comes to: no two modules clash, and each has its imports looked at. -/
lemma linkAll_eq_ok {b b' : Bundle} (h : (linkAll b).result = .ok b') :
    clash? [] b.modules = none ∧ b'.modules = b.modules.map (relinked b.modules) := by
  rw [linkAll] at h
  split at h
  · cases h
  · rename_i hclash
    cases h
    refine ⟨hclash, ?_⟩
    rw [← List.foldl_map, Bundle.modules_foldl_put (relink_id b.modules _)]
    rfl

/-! ### Emitted files -/

/-- Linking emits nothing. -/
lemma files_linkAll {b b' : Bundle} (h : (linkAll b).result = .ok b') : b'.files = b.files := by
  rw [linkAll] at h
  split at h
  · cases h
  · cases h
    rw [← List.foldl_map, Bundle.files_foldl_put]

/-- Stripping emits nothing. -/
lemma files_stripAll {b b' : Bundle} (h : (stripAll b).result = .ok b') : b'.files = b.files := by
  rw [stripAll] at h
  split at h
  · cases h
  · cases h
    exact Bundle.files_foldl_remove _ _

end Layout

/-! ### The two stages -/

namespace Stage

open Pipeline Layout

variable {filter : DiagnosticFilter} {deps : Deps} {project : Project} {s : Stage}
  {state next : State}

lemma rename_id (rules : RenameRules) (m : Module) : (m.rename rules).id = m.id := by
  rw [Module.rename]
  split_ifs <;> rfl

/-- A module at its output path: the seed keeps its own. -/
def placed (rules : RenameRules) (m : Module) : Module := if m.seed then m else m.rename rules

section Placed

variable (rules : RenameRules) (m : Module)

/-- Giving a module its output path changes neither what a module is nor what it imports. -/
lemma placed_fields :
    (placed rules m).id = m.id ∧ (placed rules m).kind = m.kind
      ∧ (placed rules m).seed = m.seed ∧ (placed rules m).imports = m.imports := by
  rw [placed, Module.rename]
  split_ifs <;> simp

@[simp] lemma placed_id : (placed rules m).id = m.id := (placed_fields rules m).1

@[simp] lemma placed_kind : (placed rules m).kind = m.kind := (placed_fields rules m).2.1

@[simp] lemma placed_seed : (placed rules m).seed = m.seed := (placed_fields rules m).2.2.1

@[simp] lemma placed_imports : (placed rules m).imports = m.imports :=
  (placed_fields rules m).2.2.2

@[simp] lemma isScaffold_placed : isScaffold (placed rules m) = isScaffold m := by
  simp [isScaffold]

lemma isPlain_placed (hrules : rules.Tidy) (h : Path.IsPlain m.path) :
    Path.IsPlain (placed rules m).path := by
  rw [placed, Module.rename]
  split_ifs
  · exact h
  · exact h
  · exact RenameRules.isPlain_apply hrules h

end Placed

/-- What renaming comes to: the modules at their output paths do not clash, and are linked by
them. -/
lemma rename_eq_ok (hp : deps.project = some project) (h : Stage.rename deps = .ok s)
    (hrun : (runStage filter s state).result = .ok next) :
    clash? [] (state.bundle.modules.map (placed project.renameRules)) = none
      ∧ next.bundle.modules = (state.bundle.modules.map (placed project.renameRules)).map
        (relinked (state.bundle.modules.map (placed project.renameRules))) := by
  obtain ⟨project', hp', h⟩ := bind_eq_ok.1 h
  obtain rfl := Deps.needProject_eq_ok hp hp'
  simp only at h
  split at h
  · cases h
  cases h
  obtain ⟨b, -, htransform, hfinish⟩ := runStage_eq_ok hrun
  have hb : b.modules = state.bundle.modules.map (placed project.renameRules) := by
    rw [modules_of_transformAll (fun _ => rfl) (rename_id project.renameRules) htransform]
    refine List.map_congr_left fun m _ => ?_
    cases hseed : m.seed <;> simp [placed, hseed, includes, PathFilter.accepts]
  obtain ⟨hclash, hlinked⟩ := linkAll_eq_ok hfinish
  rw [hb] at hclash hlinked
  exact ⟨hclash, hlinked⟩

/-- What stripping comes to. -/
lemma strip_eq_ok (h : Stage.strip deps = .ok s)
    (hrun : (runStage filter s state).result = .ok next) :
    (stripAll state.bundle).result = .ok next.bundle := by
  cases h
  obtain ⟨b, -, htransform, hfinish⟩ := runStage_eq_ok hrun
  cases htransform
  exact hfinish

/-- What the two stages come to in a row: the modules at their output paths do not clash, those that
are no scaffold are left and linked, and none of them imports a scaffold. -/
lemma layout_eq_ok (hdeps : deps.project = some project) {s₁ s₂ : Stage}
    (h₁ : Stage.rename deps = .ok s₁) (h₂ : Stage.strip deps = .ok s₂) {fs : FileSystem}
    {b b' : Bundle}
    (hrun : (runFrom filter none ⟨fs, b⟩ [s₁, s₂]).result = .ok b') {ms : List Module}
    (hms : ms = b.modules.map (placed project.renameRules)) :
    clash? [] ms = none ∧ b'.modules = (ms.filter fun m => !isScaffold m).map (relinked ms)
      ∧ ∀ m ∈ b'.modules, ∀ i ∈ m.imports, ∀ gone ∈ ms, isScaffold gone = true →
        gone.id ≠ i.resolved := by
  subst hms
  obtain ⟨renamed, hrename, hrun⟩ := runFrom_cons_eq_ok.1 hrun
  obtain ⟨last, hstrip, hrun⟩ := runFrom_cons_eq_ok.1 hrun
  cases hrun
  obtain ⟨hclash, hlinked⟩ := rename_eq_ok hdeps h₁ hrename
  obtain ⟨hkept, hdangling⟩ := stripAll_eq_ok (strip_eq_ok h₂ hstrip)
  refine ⟨hclash, ?_, fun m hm i hi gone hgone hscaffold => ?_⟩
  · rw [hkept, hlinked, List.filter_map]
    congr 2
    funext m
    simp
  · have hmem := List.mem_map_of_mem (f := relinked (b.modules.map (placed project.renameRules)))
      hgone
    rw [← hlinked] at hmem
    simpa using hdangling m hm i hi _ hmem (by simpa using hscaffold)

/-- **Renaming and stripping link a bundle.** If they succeed on a bundle in which modules lie at
plain paths, only scripts and style modules import, and resolved imports stand for modules, then no
two modules of the result share a path, every resolved import of the result leads to the path of its
module, which is no plain stylesheet, and the modules of the result are those that are no scaffold,
at their renamed paths. -/
theorem layout_linked {root : Text} {f : ProjectFile} {o : Overrides}
    (hproject : Project.resolve root f o = .ok project) (hdeps : deps.project = some project)
    {s₁ s₂ : Stage} (h₁ : Stage.rename deps = .ok s₁) (h₂ : Stage.strip deps = .ok s₂)
    (filter : DiagnosticFilter) {calledOff : Option ℕ} (fs : FileSystem) {b b' : Bundle}
    (hplain : ∀ m ∈ b.modules, Path.IsPlain m.path)
    (hkind : ∀ m ∈ b.modules, m.imports ≠ [] → m.kind = .script ∨ m.kind = .styleModule)
    (hresolved : ∀ m ∈ b.modules, ∀ i ∈ m.imports, i.resolved ≠ [] → b.has i.resolved = true)
    (hrun : (Pipeline.runFrom filter calledOff ⟨fs, b⟩ [s₁, s₂]).result = .ok b') :
    (b'.modules.map (·.path)).Nodup
      ∧ (∀ m ∈ b'.modules, ∀ i ∈ m.imports, i.resolved ≠ [] →
        ∃ target, b'.get? i.resolved = some target ∧ target.kind ≠ .style
          ∧ Path.join [Path.dir m.path, i.specifier] = target.path)
      ∧ b'.modules.map (fun m => (m.id, m.path))
        = (b.modules.filter fun m => !isScaffold m).map fun m =>
          (m.id, (m.rename project.renameRules).path) := by
  set ms := b.modules.map (placed project.renameRules) with hms
  obtain ⟨hclash, hmodules, hdangling⟩ := layout_eq_ok hdeps h₁ h₂ (runFrom_of_ok hrun) hms
  have hrules := Project.tidy_renameRules (Project.resolve_checked hproject).2
  have hmsplain : ∀ m ∈ ms, Path.IsPlain m.path := by
    intro m hm
    obtain ⟨old, hold, rfl⟩ := List.mem_map.1 hm
    exact isPlain_placed _ old hrules (hplain old hold)
  refine ⟨?_, fun m hm i hi hres => ?_, ?_⟩
  · have hpaths : b'.modules.map (·.path)
        = (ms.filter fun m => !isScaffold m).map (·.path) := by
      rw [hmodules, List.map_map]
      exact List.map_congr_left fun m _ => relinked_path ms m
    rw [hpaths]
    exact nodup_path_of_clash? hclash
  · obtain ⟨source, hsource, rfl⟩ := List.mem_map.1 (hmodules ▸ hm)
    obtain ⟨hsource, hscaffold⟩ := List.mem_filter.1 hsource
    have hseed := seed_eq_false_of_isScaffold (by simpa using hscaffold)
    obtain ⟨old, hold, rfl⟩ := List.mem_map.1 hsource
    have hids : ∀ i ∈ (placed project.renameRules old).imports, i.resolved ≠ [] →
        ∃ target ∈ ms, target.id = i.resolved := by
      intro i hi hres
      rw [placed_imports] at hi
      obtain ⟨target, htarget, hid⟩ := Bundle.has_eq_true_iff.1 (hresolved old hold i hi hres)
      exact ⟨placed project.renameRules target, List.mem_map_of_mem htarget, by simpa using hid⟩
    obtain ⟨target, htarget, hid, hstyle, hjoin⟩ := exists_target_of_mem_imports hmsplain hsource
      hseed (by simpa using hkind old hold) hids hi hres
    -- a target that were taken out would have made stripping fail
    have hleft : isScaffold target = false := by
      by_contra hgone
      exact hdangling _ hm i hi target htarget (by simpa using hgone) hid
    refine ⟨relinked ms target, Bundle.get?_eq_some_iff.2 ⟨?_, by simpa using hid⟩, ?_, ?_⟩
    · rw [hmodules]
      exact List.mem_map_of_mem (List.mem_filter.2 ⟨htarget, by simpa using hleft⟩)
    · simpa using hstyle
    · simpa using hjoin
  · have hfilter : (fun m => !isScaffold m) ∘ placed project.renameRules
        = fun m => !isScaffold m := by
      funext m
      simp
    rw [hmodules, hms, List.filter_map, hfilter, List.map_map, List.map_map]
    refine List.map_congr_left fun m hm => ?_
    obtain ⟨-, hscaffold⟩ := List.mem_filter.1 hm
    have hseed := seed_eq_false_of_isScaffold (m := m) (by simpa using hscaffold)
    simp [placed, hseed, rename_id]

/-- A page with an import of each sort: of a script, of a plain stylesheet, and of a package that
only the seed has resolved; a declaration file that nothing imports. -/
theorem layout_linked_page :
    ∃ project s₁ s₂ b b', Project.resolve "/proj" .empty ⟨false, [], .one⟩ = .ok project
      ∧ Stage.rename ⟨some project, none, none, false, none, none⟩ = .ok s₁
      ∧ Stage.strip ⟨some project, none, none, false, none, none⟩ = .ok s₂
      ∧ b = Bundle.ofModules [
        { Module.ofSource "__mini_entries__.js" [] with
          seed := true
          imports := [⟨"./src/pages/index.tsx", "src/pages/index.tsx"⟩,
            ⟨"remax", "node_modules/remax/index.js"⟩] },
        { Module.ofSource "src/pages/index.tsx" "import \"../util\";\nimport \"remax\";\n" with
          imports := [⟨"../util", "src/util.ts"⟩, ⟨"./index.css", "src/pages/index.css"⟩,
            ⟨"remax", []⟩] },
        .ofSource "src/util.ts" [], .ofSource "src/pages/index.css" [],
        .ofSource "node_modules/remax/index.js" [], .ofSource "src/types.d.ts" []]
      ∧ (Pipeline.runFrom .standard none ⟨⟨.memory .empty, false⟩, b⟩ [s₁, s₂]).result = .ok b'
      ∧ b'.ids = ["src/pages/index.tsx", "src/util.ts", "src/pages/index.css",
        "node_modules/remax/index.js"]
      ∧ (b'.modules.map (·.path)).Nodup
      ∧ ∀ m ∈ b'.modules, ∀ i ∈ m.imports, i.resolved ≠ [] →
        ∃ target, b'.get? i.resolved = some target ∧ target.kind ≠ .style
          ∧ Path.join [Path.dir m.path, i.specifier] = target.path := by
  set b := Bundle.ofModules [
    { Module.ofSource "__mini_entries__.js" [] with
      seed := true
      imports := [⟨"./src/pages/index.tsx", "src/pages/index.tsx"⟩,
        ⟨"remax", "node_modules/remax/index.js"⟩] },
    { Module.ofSource "src/pages/index.tsx" "import \"../util\";\nimport \"remax\";\n" with
      imports := [⟨"../util", "src/util.ts"⟩, ⟨"./index.css", "src/pages/index.css"⟩,
        ⟨"remax", []⟩] },
    .ofSource "src/util.ts" [], .ofSource "src/pages/index.css" [],
    .ofSource "node_modules/remax/index.js" [], .ofSource "src/types.d.ts" []] with hb
  have hall : ((Project.resolve "/proj" .empty ⟨false, [], .one⟩).mapError (·.failure) >>=
      fun project => Stage.rename ⟨some project, none, none, false, none, none⟩ >>= fun s₁ =>
      Stage.strip ⟨some project, none, none, false, none, none⟩ >>= fun s₂ =>
      (Pipeline.runFrom .standard none ⟨⟨.memory .empty, false⟩, b⟩ [s₁, s₂]).result.map (·.ids))
        = .ok ["src/pages/index.tsx", "src/util.ts", "src/pages/index.css",
          "node_modules/remax/index.js"] := by decide +kernel
  obtain ⟨project, hproject, hall⟩ := bind_eq_ok.1 hall
  obtain ⟨s₁, h₁, hall⟩ := bind_eq_ok.1 hall
  obtain ⟨s₂, h₂, hall⟩ := bind_eq_ok.1 hall
  obtain ⟨b', hrun, hids⟩ := map_eq_ok.1 hall
  rw [mapError_eq_ok] at hproject
  obtain ⟨hnodup, hlinks, -⟩ := layout_linked hproject rfl h₁ h₂ .standard ⟨.memory .empty, false⟩
    (b := b) (by decide +kernel) (by decide +kernel) (by decide +kernel) hrun
  exact ⟨project, s₁, s₂, b, b', hproject, h₁, h₂, hb, hrun, hids, hnodup, hlinks⟩

end Stage

end MiniProgram
