import MiniProgram.Doctor
import MiniProgram.Proofs.Build.Effect
import MiniProgram.Proofs.Pipeline.Assembly

/-!
The doctor and the build agree.

Both look at the settings, the platform and the entries, the doctor at each of them on its own and
the build on its way to the first stage. A build has more to go through: it makes ten stages and
checks their order. That can only fail over the platform, so what the doctor finds in order is
enough for the build to begin.

* `passes_checks_iff`: what the checks before a build come to.
* `exists_plan_iff`: what it takes to plan a build.
* `head?_steps_carryOut`, `carryOut_at_once`: a planned build runs its first stage, whatever becomes
  of it, unless it is called off before.
* `passes_iff_build_begins`: the doctor finds no fault exactly if a build begins.
-/

namespace MiniProgram

namespace Doctor

/-! ### The checks -/

/-- There is a check with a name, and it found no fault. -/
def Passes (cs : List Check) (name : Text) : Prop := ∃ c ∈ cs, c.name = name ∧ c.passed = true

/-- The checks of what a build goes through before its first stage. -/
def beforeStages : List Text := ["config", "platform", "entries"]

@[simp] lemma not_passes_nil (name : Text) : ¬ Passes [] name := by
  rintro ⟨c, hc, -⟩
  cases hc

@[simp] lemma passes_cons {c : Check} {cs : List Check} {name : Text} :
    Passes (c :: cs) name ↔ (c.name = name ∧ c.passed = true) ∨ Passes cs name := by
  simp [Passes]

lemma passed_inWords_iff {α : Type} {name : Text} {r : Except Failure α} {shown : α → Text} :
    (⟨name, inWords r shown⟩ : Check).passed = true ↔ ∃ a, r = .ok a := by
  cases r with
  | error f => simp [Check.passed, inWords, Except.isOk, Except.toBool]
  | ok a => simp [Check.passed, inWords, Except.isOk, Except.toBool]

/-- The doctor finds the entries that a build finds. -/
lemma entries_eq_ok_iff {fs : FileSystem} {project : Project} {catalog : Catalog} :
    entries fs project = .ok catalog ↔ Build.discover fs project = .ok catalog := by
  rw [entries, Build.discover, bind_eq_ok, bind_eq_ok]
  simp only [withContext_eq_ok]

/-- Settings as the doctor reads them are those of a build that overrides nothing. -/
lemma settings_eq (dir : Text) (dev : Bool) (processors : Processors)
    (calledOff : Build.CallOff) (file : Except FileError Text) :
    (do
      let f ← ProjectFile.load file
      (Project.resolve dir f ⟨false, [], processors⟩).mapError (·.failure))
      = Build.settings ⟨dir, dev, false, [], processors, calledOff⟩ file := rfl

/-- The checks before a build pass if there are settings, the platform they name is known and the
entries are found. -/
lemma passes_checks_iff {registry : Registry} {processors : Processors}
    {transpiler : Except Text Text} {file : Except FileError Text} {fs : FileSystem} {dir : Text}
    (dev : Bool) (calledOff : Build.CallOff) :
    (∀ name ∈ beforeStages, Passes (checks registry processors transpiler file fs dir) name)
      ↔ ∃ project, Build.settings ⟨dir, dev, false, [], processors, calledOff⟩ file = .ok project
        ∧ (∃ platform, registry.platform project.platform = .ok platform)
        ∧ ∃ catalog, Build.discover fs project = .ok catalog := by
  rw [checks, settings_eq dir dev processors calledOff file]
  cases hset : Build.settings ⟨dir, dev, false, [], processors, calledOff⟩ file with
  | error f =>
      refine ⟨fun h => ?_, by simp⟩
      simpa +decide [passed_inWords_iff] using h "config" (by decide)
  | ok project =>
      simp +decide [beforeStages, passed_inWords_iff, entries_eq_ok_iff]

end Doctor

/-! ### The way to the first stage -/

namespace Build

variable {tools : Tools} {input : Input} {file : Except FileError Text} {fs : FileSystem}

/-- A build can be planned if there are settings, the platform they name is known and the entries
are found. -/
lemma exists_plan_iff :
    (∃ p, plan tools input file fs = .ok p)
      ↔ ∃ project, settings input file = .ok project
        ∧ (∃ platform, tools.registry.platform project.platform = .ok platform)
        ∧ ∃ catalog, discover fs project = .ok catalog := by
  constructor
  · rintro ⟨p, hp⟩
    obtain ⟨project, hproject, hp⟩ := bind_eq_ok.1 hp
    obtain ⟨catalog, hcatalog, hp⟩ := bind_eq_ok.1 hp
    obtain ⟨stages, hstages, -⟩ := bind_eq_ok.1 hp
    exact ⟨project, withContext_eq_ok.1 hproject,
      Pipeline.exists_platform_of_assemble (withContext_eq_ok.1 hstages), catalog, hcatalog⟩
  · rintro ⟨project, hproject, ⟨platform, hplatform⟩, catalog, hcatalog⟩
    obtain ⟨stages, hstages, -⟩ := Pipeline.exists_assemble hplatform input.dev
    exact ⟨_, bind_eq_ok.2 ⟨project, withContext_eq_ok.2 hproject,
      bind_eq_ok.2 ⟨catalog, hcatalog, bind_eq_ok.2 ⟨stages, withContext_eq_ok.2 hstages, rfl⟩⟩⟩⟩

/-- The stages of a plan are those of the fixed order. -/
lemma names_stages {p : Plan} (h : plan tools input file fs = .ok p) :
    p.stages.map (·.name) = Pipeline.names input.dev := by
  obtain ⟨project, -, h⟩ := bind_eq_ok.1 h
  obtain ⟨catalog, -, h⟩ := bind_eq_ok.1 h
  obtain ⟨stages, hstages, h⟩ := bind_eq_ok.1 h
  rw [withContext_eq_ok] at hstages
  obtain ⟨platform, hplatform⟩ := Pipeline.exists_platform_of_assemble hstages
  obtain ⟨stages', hstages', hnames⟩ := Pipeline.exists_assemble hplatform input.dev
  cases h
  cases hstages.symm.trans hstages'
  exact hnames

/-! ### What is reported -/

/-- The step of a stage has its name, whatever becomes of it. -/
lemma stage_runStage (filter : DiagnosticFilter) (s : Stage) (state : Pipeline.State) :
    (Pipeline.runStage filter s state).stage = s.name := by
  rw [Pipeline.runStage]
  dsimp only
  split
  · rfl
  · split <;> rfl

/-- A run that is not called off before takes its first step at its first stage. -/
lemma head?_steps_runFrom (filter : DiagnosticFilter) {calledOff : Option ℕ}
    (hoff : calledOff ≠ some 0) (state : Pipeline.State) (stages : List Stage) :
    ((Pipeline.runFrom filter calledOff state stages).steps.map (·.stage)).head?
      = (stages.map (·.name)).head? := by
  cases stages with
  | nil => rfl
  | cons s rest =>
      rw [Pipeline.runFrom, if_neg hoff]
      dsimp only
      split <;> simp [stage_runStage]

lemma steps_foldl_add (ds : List Diagnostic) (r : Report) :
    (ds.foldl Report.add r).steps = r.steps := by
  induction ds generalizing r with
  | nil => rfl
  | cons d ds ih =>
      rw [List.foldl_cons, ih, Report.add]
      cases d.severity <;> rfl

/-- The report names the stages that were run, in their order. -/
lemma names_steps_foldl_recordStep (steps : List Pipeline.Step) (r : Report) :
    (steps.foldl recordStep r).steps.map (·.name)
      = r.steps.map (·.name) ++ steps.map (·.stage) := by
  induction steps generalizing r with
  | nil => simp
  | cons s steps ih =>
      rw [List.foldl_cons, ih, recordStep, Report.addStep]
      simp [steps_foldl_add, Report.Step.finish, Report.Step.start]

/-- A build that is carried out reports its first stage first. -/
lemma head?_steps_carryOut {calledOff : Option ℕ} (hoff : calledOff ≠ some 0) {p : Plan}
    (hne : p.stages ≠ []) (fs : FileSystem) :
    ∃ report, (carryOut calledOff p fs).report = some report
      ∧ (report.steps.map (·.name)).head? = (p.stages.map (·.name)).head? := by
  have hhead := head?_steps_runFrom .standard hoff
    ⟨fs, Bundle.ofModules [p.catalog.seed [p.project.runtimeModule]]⟩ p.stages
  rw [carryOut, Pipeline.run]
  dsimp only
  split
  · refine ⟨_, rfl, ?_⟩
    rw [Report.addError, names_steps_foldl_recordStep, ← hhead]
    rfl
  · refine ⟨_, rfl, ?_⟩
    -- The step that writes the files comes last, and there are stages before it.
    have hsteps : (Pipeline.runFrom .standard calledOff
        ⟨fs, Bundle.ofModules [p.catalog.seed [p.project.runtimeModule]]⟩ p.stages).steps ≠ [] := by
      intro hnil
      rw [hnil] at hhead
      simp [hne] at hhead
    rw [Report.addStep, List.map_append, names_steps_foldl_recordStep, ← hhead]
    exact List.head?_append_of_ne_nil _ (by simpa [Report.start] using hsteps)

/-- A build that is called off before its first stage reports none, changes no file and fails for
that reason. -/
lemma carryOut_at_once {p : Plan} (hne : p.stages ≠ []) (fs : FileSystem) :
    ∃ report, carryOut (some 0) p fs = ⟨[], some report, fs, some .canceled⟩
      ∧ report.steps = [] := by
  obtain ⟨s, rest, hstages⟩ := List.exists_cons_of_ne_nil hne
  rw [carryOut, Pipeline.run, hstages, Pipeline.runFrom, if_pos rfl]
  exact ⟨_, rfl, rfl⟩

/-- A build that began: it has a report, and the first stage of the fixed order comes first in
it. -/
def Result.Began (r : Result) (dev : Bool) : Prop :=
  ∃ report, r.report = some report
    ∧ (report.steps.map (·.name)).head? = (Pipeline.names dev).head?

/-- A build begins exactly if it can be planned and is not called off before its first stage. -/
lemma began_run_iff :
    (run tools input file fs).Began input.dev
      ↔ (∃ p, plan tools input file fs = .ok p) ∧ input.calledOff.stages ≠ some 0 := by
  rw [run]
  cases hplan : plan tools input file fs with
  | error f => simp [Result.Began]
  | ok p =>
      have hnames := names_stages hplan
      have hne : p.stages ≠ [] := by
        rintro hnil
        rw [hnil] at hnames
        revert hnames
        cases input.dev <;> decide
      rw [Result.Began, ← hnames]
      by_cases hoff : input.calledOff.stages = some 0
      · refine iff_of_false ?_ fun h => h.2 hoff
        rintro ⟨report, hreport, hhead⟩
        obtain ⟨report', hstopped, hsteps⟩ := carryOut_at_once hne fs
        simp only [hoff, hstopped] at hreport
        cases hreport
        simp [hsteps, hne] at hhead
      · exact iff_of_true (head?_steps_carryOut hoff hne fs) ⟨⟨p, rfl⟩, hoff⟩

end Build

/-- **The doctor and the build agree**: the checks of the settings, the platform and the entries all
pass exactly if a build of the same directory that overrides nothing can be planned, and then it
begins, in development and in production, unless it is called off before its first stage. The stages
are refused only if the platform is not known. -/
theorem Doctor.passes_iff_build_begins (tools : Build.Tools) (processors : Processors)
    (transpiler : Except Text Text) (file : Except FileError Text) (fs : FileSystem) (dir : Text)
    (dev : Bool) (calledOff : Build.CallOff) :
    ((∀ name ∈ beforeStages,
        Passes (checks tools.registry processors transpiler file fs dir) name)
      ↔ ∃ p, Build.plan tools ⟨dir, dev, false, [], processors, calledOff⟩ file fs = .ok p)
    ∧ ((∀ name ∈ beforeStages,
        Passes (checks tools.registry processors transpiler file fs dir) name)
          ∧ calledOff.stages ≠ some 0
      ↔ (Build.run tools ⟨dir, dev, false, [], processors, calledOff⟩ file fs).Began dev)
    ∧ ∀ project catalog visits,
      (∃ stages, Pipeline.assemble dev
          (Pipeline.allParts project catalog tools.registry tools.transformer visits) = .ok stages
        ∧ stages.map (·.name) = Pipeline.names dev)
      ↔ ∃ platform, tools.registry.platform project.platform = .ok platform := by
  have hplan : (∀ name ∈ beforeStages,
        Passes (checks tools.registry processors transpiler file fs dir) name)
      ↔ ∃ p, Build.plan tools ⟨dir, dev, false, [], processors, calledOff⟩ file fs = .ok p :=
    (passes_checks_iff dev calledOff).trans Build.exists_plan_iff.symm
  refine ⟨hplan, ?_, fun project catalog visits => ⟨?_, ?_⟩⟩
  · rw [hplan]
    exact Build.began_run_iff.symm
  · rintro ⟨stages, hstages, -⟩
    exact Pipeline.exists_platform_of_assemble hstages
  · rintro ⟨platform, hplatform⟩
    exact Pipeline.exists_assemble hplatform dev

end MiniProgram
