import MiniProgram.Proofs.Script.Retargeting.Run
import MiniProgram.Proofs.Stage.Layout

/-!
Imports of plain stylesheets. Renaming drops them, because the runtime loads such a stylesheet by
itself.

What becomes of an import is decided by the module it stands for. A specifier that is dropped is
gone from the script, its imports and its calls of `require` with it; only a re-export of it stays.

* `link_eq_drop_iff`: which imports are dropped.
* `relinked_content`: the script of a linked module.
* `dropped_gone_unless_reexported`: **what is dropped is gone, unless it is re-exported**, in one
  script and by the rename stage.
-/

namespace MiniProgram

namespace Layout

open Script

variable {ms : List Module} {links : List (Import × Link)} {path : Text} {i : Import} {m : Module}

/-! ### Which imports are dropped -/

/-- The module that an import stands for: the one it is resolved to, or else the one that the seed
resolves its package to. -/
def targetId (ms : List Module) (i : Import) : Text :=
  if i.resolved = [] then ((seedPackages ms).lookup i.specifier).getD [] else i.resolved

/-- An import is dropped if it stands for a plain stylesheet. -/
lemma link_eq_drop_iff : link ms (seedPackages ms) path i = .drop
    ↔ ∃ target, ms.find? (·.id = targetId ms i) = some target ∧ target.kind = .style := by
  rw [link, targetId]
  generalize (if i.resolved = [] then _ else _) = id
  cases hfind : ms.find? (·.id = id) with
  | none => simp
  | some target =>
      simp only [Option.some.injEq, exists_eq_left']
      split_ifs with hkind <;> simp [hkind]

/-- A specifier is dropped if one of its imports is. -/
lemma retargetFor_eq_drop (h : (i, Link.drop) ∈ links) :
    retargetFor links i.specifier = .drop := by
  rw [retargetFor, if_pos]
  rw [List.contains_iff_mem]
  exact List.mem_map.2 ⟨(i, .drop), List.mem_filter.2 ⟨h, by simp⟩, rfl⟩

/-! ### The script of a linked module -/

/-- What becomes of the references of a module among others. -/
def retargeting (ms : List Module) (m : Module) : Text → Retarget :=
  retargetFor (m.imports.map fun i => (i, link ms (seedPackages ms) m.path i))

/-- The script of a linked module is retargeted. -/
lemma relinked_content (h : isLinked m = true) :
    (relinked ms m).content = retargetImports (retargeting ms m) m.content := by
  rw [relinked, if_pos h]
  rfl

/-- The specifier of an import of a plain stylesheet is dropped. -/
lemma retargeting_eq_drop (hi : i ∈ m.imports) {target : Module}
    (hfind : ms.find? (·.id = targetId ms i) = some target) (hstyle : target.kind = .style) :
    retargeting ms m i.specifier = .drop := by
  refine retargetFor_eq_drop (List.mem_map.2 ⟨i, hi, ?_⟩)
  rw [link_eq_drop_iff.2 ⟨target, hfind, hstyle⟩]

end Layout

namespace Stage

open Layout Pipeline Script Retargeting

variable {rules : RenameRules} {ms : List Module} {m : Module}

@[simp] lemma placed_content (rules : RenameRules) (m : Module) :
    (placed rules m).content = m.content := by
  rw [placed, Module.rename]
  split_ifs <;> rfl

/-- Seeds stay where they are, so packages are resolved as before. -/
lemma seedPackages_map_placed (rules : RenameRules) (ms : List Module) :
    seedPackages (ms.map (placed rules)) = seedPackages ms := by
  have hseeds : (ms.map (placed rules)).filter (·.seed) = ms.filter (·.seed) := by
    rw [List.filter_map]
    have hcomp : (fun m : Module => m.seed) ∘ placed rules = (·.seed) := by
      funext m
      simp
    rw [hcomp]
    refine (List.map_congr_left fun m hm => ?_).trans (List.map_id _)
    rw [placed, if_pos (by simpa using (List.mem_filter.1 hm).2)]
    rfl
  rw [seedPackages, hseeds, seedPackages]

lemma find?_map_placed (rules : RenameRules) (ms : List Module) (id : Text) :
    (ms.map (placed rules)).find? (·.id = id) = (ms.find? (·.id = id)).map (placed rules) := by
  rw [List.find?_map]
  congr 2
  funext m
  simp

/-- **What is dropped is gone, unless it is re-exported.** Let the statements of a script that
change stand apart.

If its references are dropped or left as they are, then a specifier that is dropped is found
afterwards exactly if a re-export names it.

If it is the script of a module that the rename stage links, then the specifier of an import of a
plain stylesheet is found afterwards exactly if a re-export names it, or if another import is
pointed at a module that is reached by the very same specifier. -/
theorem dropped_gone_unless_reexported (f : Text → Retarget) (code : Text)
    (hapart : ∀ form, Apart f form (before f code form)) :
    ((∀ spec, f spec = .drop ∨ f spec = .replace spec) → ∀ spec, f spec = .drop →
      (spec ∈ scanImports (retargetImports f code)
        ↔ ∃ ref ∈ references .exporting code, ref.spec = spec))
    ∧ ∀ (deps : Deps) (project : Project) (s : Stage) (filter : DiagnosticFilter)
        (state next : State), deps.project = some project → Stage.rename deps = .ok s →
      (runStage filter s state).result = .ok next →
      ∀ m ∈ state.bundle.modules, m.seed = false → m.kind = .script ∨ m.kind = .styleModule →
      m.content = code →
      retargeting (state.bundle.modules.map (placed project.renameRules))
        (placed project.renameRules m) = f →
      ∀ i ∈ m.imports, ∀ target ∈ state.bundle.modules,
        target.id = targetId state.bundle.modules i → target.kind = .style →
        ∃ m', next.bundle.get? m.id = some m'
          ∧ (i.specifier ∈ scanImports m'.content
            ↔ (∃ ref ∈ references .exporting code, ref.spec = i.specifier)
              ∨ ∃ other ∈ scanImports code, f other = .replace i.specifier) := by
  constructor
  · intro hf spec hdrop
    rw [dropped_mem_scanImports hapart hdrop, or_iff_left]
    rintro ⟨other, -, hother⟩
    rcases hf other with h | h
    · rw [h] at hother
      cases hother
    · rw [h] at hother
      cases hother
      rw [h] at hdrop
      cases hdrop
  · rintro deps project s filter state next hdeps hs hrun m hm hseed hkind rfl rfl i hi target
      htarget hid hstyle
    obtain ⟨-, hmodules⟩ := rename_eq_ok hdeps hs hrun
    have hlinked : isLinked (placed project.renameRules m) = true := by
      simp [isLinked, hseed, hkind, List.ne_nil_of_mem hi]
    -- the modules have been given their paths, and the stylesheet is found under its identifier
    have hfind : (state.bundle.modules.map (placed project.renameRules)).find?
        (·.id = targetId (state.bundle.modules.map (placed project.renameRules)) i)
          = some (placed project.renameRules target) := by
      rw [find?_map_placed, targetId, seedPackages_map_placed, ← targetId, ← hid,
        ← Bundle.get?_eq_find?, Bundle.get?_eq_some_iff.2 ⟨htarget, rfl⟩, Option.map_some]
    have hdrop := retargeting_eq_drop (m := placed project.renameRules m)
      ((placed_imports project.renameRules m).symm ▸ hi) hfind (by simpa using hstyle)
    refine ⟨relinked (state.bundle.modules.map (placed project.renameRules))
      (placed project.renameRules m), Bundle.get?_eq_some_iff.2 ⟨?_, by simp⟩, ?_⟩
    · rw [hmodules]
      exact List.mem_map_of_mem (List.mem_map_of_mem hm)
    · rw [relinked_content hlinked, placed_content]
      exact dropped_mem_scanImports hapart hdrop

/-- Some specifiers dropped, and the others left as they are. -/
def dropping (dropped : List Text) (spec : Text) : Retarget :=
  if dropped.contains spec then .drop else .replace spec

lemma dropping_eq_or (dropped : List Text) (spec : Text) :
    dropping dropped spec = .drop ∨ dropping dropped spec = .replace spec := by
  rw [dropping]
  split_ifs
  · exact Or.inl rfl
  · exact Or.inr rfl

/-- In a script, an import and a call of `require` are dropped. The rename stage drops the imports
of two stylesheets from a page, and of the one that is re-exported the re-export is left. -/
theorem dropped_gone_unless_reexported_page :
    (∃ (f : Text → Retarget) (code : Text), f = dropping ["./a.css", "./c.css"]
      ∧ code = "import a, { x } from './a.css';\nimport b from './b';\nlet c = require('./c.css')"
      ∧ ("./a.css" : Text) ∉ scanImports (retargetImports f code)
      ∧ ("./c.css" : Text) ∉ scanImports (retargetImports f code))
    ∧ ∃ project s state next m', Project.resolve "/proj" .empty ⟨false, [], .one⟩ = .ok project
      ∧ Stage.rename ⟨some project, none, none, false, none, none⟩ = .ok s
      ∧ state = State.mk ⟨.memory .empty, false⟩ (Bundle.ofModules [
        { Module.ofSource "src/page.ts"
            "import a from './a.css';\nimport './b.css';\nimport '../c'\nexport * from './b.css'"
          with imports :=
            [⟨"./a.css", "src/a.css"⟩, ⟨"./b.css", "src/b.css"⟩, ⟨"../c", "c.ts"⟩] },
        .ofSource "src/a.css" [], .ofSource "src/b.css" [], .ofSource "c.ts" []])
      ∧ (runStage .standard s state).result = .ok next
      ∧ next.bundle.get? "src/page.ts" = some m'
      ∧ m'.content = "var a = \x7b\x7d;\n;\nimport './c.js'\nexport * from './b.css'"
      ∧ ("./a.css" : Text) ∉ scanImports m'.content
      ∧ ("./b.css" : Text) ∈ scanImports m'.content := by
  constructor
  · refine ⟨_, _, rfl, rfl, ?_⟩
    have h := (dropped_gone_unless_reexported (dropping ["./a.css", "./c.css"])
      "import a, { x } from './a.css';\nimport b from './b';\nlet c = require('./c.css')"
      (by decide +kernel)).1 (dropping_eq_or _)
    exact ⟨(h "./a.css" (by decide +kernel)).not.2 (by decide +kernel),
      (h "./c.css" (by decide +kernel)).not.2 (by decide +kernel)⟩
  · set page := { Module.ofSource "src/page.ts"
        "import a from './a.css';\nimport './b.css';\nimport '../c'\nexport * from './b.css'"
      with imports := [⟨"./a.css", "src/a.css"⟩, ⟨"./b.css", "src/b.css"⟩, ⟨"../c", "c.ts"⟩] }
    set state := State.mk ⟨.memory .empty, false⟩ (Bundle.ofModules [page,
      .ofSource "src/a.css" [], .ofSource "src/b.css" [], .ofSource "c.ts" []]) with hstate
    -- the settings, the stage and its run are evaluated together, once
    have hall : ((Project.resolve "/proj" .empty ⟨false, [], .one⟩).mapError (·.failure) >>=
        fun project => Stage.rename ⟨some project, none, none, false, none, none⟩ >>= fun s =>
        (runStage .standard s state).result.map fun next =>
          let f := retargeting (state.bundle.modules.map (placed project.renameRules))
            (placed project.renameRules page)
          ((next.bundle.get? "src/page.ts").map (·.content),
            decide (∀ form, Apart f form (before f page.content form)),
            decide (∀ form, ∀ ref ∈ references form page.content,
              f ref.spec ≠ .replace "./a.css")))
          = .ok (some "var a = \x7b\x7d;\n;\nimport './c.js'\nexport * from './b.css'",
            true, true) := by decide +kernel
    obtain ⟨project, hproject, hall⟩ := bind_eq_ok.1 hall
    obtain ⟨s, hs, hall⟩ := bind_eq_ok.1 hall
    obtain ⟨next, hrun, hall⟩ := map_eq_ok.1 hall
    rw [mapError_eq_ok] at hproject
    simp only [Prod.mk.injEq, decide_eq_true_eq] at hall
    obtain ⟨hcontent, hapart, hother⟩ := hall
    have hdrop := (dropped_gone_unless_reexported _ page.content hapart).2 _ project s .standard
      state next rfl hs hrun page (by decide +kernel) rfl (Or.inl rfl) rfl rfl
    -- `./a.css` is gone, and `./b.css` is left by the re-export
    obtain ⟨m', hm', hgone⟩ := hdrop ⟨"./a.css", "src/a.css"⟩ (by decide +kernel)
      (.ofSource "src/a.css" []) (by decide +kernel) (by decide +kernel) (by decide +kernel)
    obtain ⟨_, hm'', hleft⟩ := hdrop ⟨"./b.css", "src/b.css"⟩ (by decide +kernel)
      (.ofSource "src/b.css" []) (by decide +kernel) (by decide +kernel) (by decide +kernel)
    cases hm'.symm.trans hm''
    have hid : page.id = "src/page.ts" := by decide +kernel
    rw [hid] at hm'
    rw [hm'] at hcontent
    refine ⟨project, s, state, next, m', hproject, hs, hstate, hrun, hm', Option.some.inj hcontent,
      hgone.not.2 ?_, hleft.2 (Or.inl (by decide +kernel))⟩
    rintro (hreexported | ⟨other, hmem, heq⟩)
    · exact absurd hreexported (by decide +kernel)
    · obtain ⟨form, hmem⟩ := mem_scanImports_iff_references.1 hmem
      obtain ⟨ref, href, rfl⟩ := List.mem_map.1 hmem
      exact hother form ref href heq

/-- Dropped specifiers that are found afterwards: a re-export is not dropped; an edit can put a
statement together, or close a comment that hid one. -/
theorem exists_dropped_mem_scanImports :
    ∃ f : Text → Retarget, (∀ spec, f spec = .drop ∨ f spec = .replace spec)
      ∧ f "./a.css" = .drop
      ∧ ∀ code ∈ (["export * from './a.css';\n", "import require('./a.css')from './a.css'",
          "\"import './a.css\"/* import './a.css' */"] : List Text),
        ("./a.css" : Text) ∈ scanImports (retargetImports f code) := by
  refine ⟨dropping ["./a.css"], dropping_eq_or _, by decide +kernel, fun code hcode => ?_⟩
  rw [mem_scanImports_iff_references]
  simp only [List.mem_cons, List.not_mem_nil, or_false] at hcode
  rcases hcode with rfl | rfl | rfl
  · exact ⟨.exporting, by decide +kernel⟩
  · exact ⟨.importing, by decide +kernel⟩
  · exact ⟨.importing, by decide +kernel⟩

end Stage

end MiniProgram
