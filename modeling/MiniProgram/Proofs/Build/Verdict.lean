import MiniProgram.Proofs.Build.Effect
import MiniProgram.Proofs.Pipeline.Diagnostics
import MiniProgram.Proofs.Report.Verdict

/-!
The verdict of a build.

A report learns of a failure in three places: a step that ended with an error, the problem a run
ended with, and the writing of the files. A build that succeeded has met none of them, as its stages
report nothing but warnings; any other has met one.

* `warnings_foldl_recordStep`, `failed_foldl_recordStep`: what recording the steps does to a report.
* `exists_report_carryOut`: the flag of the report is the failure of the build.
* `printed_verdict`: **what a build prints tells whether it succeeded**, and counts its warnings.
-/

namespace MiniProgram

namespace Pipeline

variable {filter : DiagnosticFilter} {calledOff : Option ℕ}

/-- In a run that succeeds, all steps do. -/
lemma result_of_mem_runFrom {stages : List Stage} {state : State} {b : Bundle}
    (h : (runFrom filter calledOff state stages).result = .ok b) :
    ∀ step ∈ (runFrom filter calledOff state stages).steps, ∃ next, step.result = .ok next := by
  induction stages generalizing calledOff state with
  | nil => exact fun step hstep => (nomatch hstep)
  | cons s stages ih =>
      rw [runFrom] at h ⊢
      split_ifs at h ⊢ with hoff
      cases hr : (runStage filter s state).result with
      | error f =>
          simp only [hr] at h
          cases h
      | ok next =>
          simp only [hr] at h ⊢
          intro step hstep
          rcases List.mem_cons.1 hstep with rfl | hstep
          · exact ⟨next, hr⟩
          · exact ih h step hstep

end Pipeline

/-! ### Recording diagnostics -/

namespace Report

variable {r : Report}

lemma warnings_foldl_add (ds : List Diagnostic) (r : Report) :
    (ds.foldl Report.add r).warnings
      = r.warnings ++ (ds.filter (·.severity = .warning)).map Problem.ofDiagnostic := by
  induction ds generalizing r with
  | nil => simp
  | cons d ds ih =>
      rw [List.foldl_cons, ih, Report.add]
      cases hd : d.severity with
      | warning => simp [addWarning, hd]
      | error => simp [addError, hd]

/-- Warnings do not flag a report. -/
lemma failed_foldl_add {ds : List Diagnostic} (hds : ∀ d ∈ ds, d.severity = .warning)
    (r : Report) : (ds.foldl Report.add r).failed = r.failed := by
  induction ds generalizing r with
  | nil => rfl
  | cons d ds ih =>
      rw [List.foldl_cons, ih fun d' hd' => hds d' (List.mem_cons_of_mem d hd'), Report.add,
        hds d List.mem_cons_self]
      rfl

end Report

namespace Build

/-! ### Recording steps -/

/-- The report of a run holds its warnings, in their order. -/
lemma warnings_foldl_recordStep (steps : List Pipeline.Step) (r : Report) :
    (steps.foldl recordStep r).warnings = r.warnings
      ++ ((steps.flatMap (·.diagnostics)).filter (·.severity = .warning)).map
        Report.Problem.ofDiagnostic := by
  induction steps generalizing r with
  | nil => simp
  | cons s steps ih =>
      rw [List.foldl_cons, ih, recordStep, Report.addStep]
      simp [Report.warnings_foldl_add]

lemma flagged_foldl_recordStep {r : Report} (h : r.Flagged) (steps : List Pipeline.Step) :
    (steps.foldl recordStep r).Flagged := by
  induction steps generalizing r with
  | nil => exact h
  | cons s steps ih => exact ih ((h.foldl_add s.diagnostics).addStep _ _)

/-- Steps that succeed and only warn do not flag a report. -/
lemma failed_foldl_recordStep {steps : List Pipeline.Step}
    (hok : ∀ s ∈ steps, ∃ next, s.result = .ok next)
    (hwarn : ∀ s ∈ steps, ∀ d ∈ s.diagnostics, d.severity = .warning) (r : Report) :
    (steps.foldl recordStep r).failed = r.failed := by
  induction steps generalizing r with
  | nil => rfl
  | cons s steps ih =>
      obtain ⟨next, hnext⟩ := hok s List.mem_cons_self
      rw [List.foldl_cons, ih (fun s' hs' => hok s' (List.mem_cons_of_mem s hs'))
        fun s' hs' => hwarn s' (List.mem_cons_of_mem s hs'), recordStep, Report.addStep]
      simp [Report.failed_foldl_add (hwarn s List.mem_cons_self), hnext, words?]

/-! ### The verdict -/

variable {tools : Tools} {input : Input} {file : Except FileError Text} {fs : FileSystem}

/-- The stages of a plan only warn. -/
lemma warns_of_mem_stages {p : Plan} (h : plan tools input file fs = .ok p) :
    ∀ s ∈ p.stages, s.Warns := by
  obtain ⟨-, -, deps, hdeps, hstages⟩ := plan_eq_ok h
  intro s hs
  obtain ⟨name, -, hmake⟩ :=
    exists_of_mem_mapM (Pipeline.mapM_make_of_assemble hdeps hstages) hs
  exact Pipeline.warns_of_make hmake

/-- The diagnostics that the stages of a plan raise until they are called off, before a filter takes
any of them out. -/
def raised (calledOff : Option ℕ) (p : Plan) (fs : FileSystem) : List Diagnostic :=
  (Pipeline.run Pipeline.allPass calledOff p.stages fs
    [p.catalog.seed [p.project.runtimeModule]]).steps.flatMap (·.diagnostics)

/-- A plan that is carried out leaves a report, flagged if the build failed, with the warnings that
pass the filter. -/
lemma exists_report_carryOut (calledOff : Option ℕ) {p : Plan} (hwarns : ∀ s ∈ p.stages, s.Warns)
    (fs : FileSystem) :
    ∃ report, (carryOut calledOff p fs).report = some report ∧ report.Flagged
      ∧ report.failed = (carryOut calledOff p fs).failure.isSome
      ∧ report.warnings = (((raised calledOff p fs).filter DiagnosticFilter.standard.passes).filter
          (·.severity = .warning)).map Report.Problem.ofDiagnostic := by
  set ran := Pipeline.run .standard calledOff p.stages fs
    [p.catalog.seed [p.project.runtimeModule]] with hran
  set report := ran.steps.foldl recordStep
    { Report.start p.project.outDir with pages := p.catalog.pages.length } with hreport
  have hflagged : report.Flagged :=
    flagged_foldl_recordStep (Report.flagged_of_steps_eq_nil rfl) ran.steps
  have hpassed : ran.steps.flatMap (·.diagnostics)
      = (raised calledOff p fs).filter DiagnosticFilter.standard.passes := by
    rw [hran, Pipeline.run, (Pipeline.runFrom_eq _ _ _ _).1, List.flatMap_map, raised,
      List.filter_flatMap]
    rfl
  have hwarnings : report.warnings = (((raised calledOff p fs).filter
      DiagnosticFilter.standard.passes).filter (·.severity = .warning)).map
        Report.Problem.ofDiagnostic := by
    rw [hreport, warnings_foldl_recordStep, hpassed]
    rfl
  cases hresult : ran.result with
  | error f =>
      refine ⟨report.addError (problemOf f), ?_, fun _ _ _ => rfl, ?_, hwarnings⟩
      · simp only [carryOut, ← hran, ← hreport, hresult]
      · simp only [carryOut, ← hran, hresult]
        rfl
  | ok b =>
      -- no step failed, so it is the writing that decides
      have hfailed : report.failed = false :=
        failed_foldl_recordStep (Pipeline.result_of_mem_runFrom hresult)
          (fun step hstep d => Pipeline.severity_of_mem_runFrom hwarns hstep) _
      refine ⟨_, by simp only [carryOut, ← hran, hresult]; rfl, ?_, ?_, ?_⟩
      · exact Report.Flagged.addStep hflagged _ _
      · simp only [carryOut, ← hran, hresult, Report.addStep, ← hreport, hfailed, Bool.false_or]
        cases (Output.write ran.fs p.project.outDir b).failure <;> rfl
      · exact hwarnings

/-- **What a build prints tells what came of it.** A build that is planned has a report. In either
rendering of it the verdict stands before the output directory: that the build is complete if it
succeeded, and else that it failed. Unless a text that the report is given holds the words of a
verdict, these words are printed with that verdict and not otherwise. The warnings are counted as
the filter lets them through. -/
theorem printed_verdict {p : Plan} (h : plan tools input file fs = .ok p) :
    ∃ report, (run tools input file fs).report = some report
      ∧ (∀ times, (run tools input file fs).printed times ∈ report.renderings times)
      ∧ (∀ times, ∀ shown ∈ report.renderings times,
        (∃ lead, shown = lead
            ++ (if (run tools input file fs).succeeded then Report.complete times
              else Report.failure times)
            ++ report.outputLine)
          ∧ ((∀ t ∈ report.given times, ¬ Report.completeWords <:+: t) →
            (Report.completeWords <:+: shown.all
              ↔ (run tools input file fs).succeeded = true))
          ∧ ((∀ t ∈ report.given times, ¬ Report.failureWords <:+: t) →
            (Report.failureWords <:+: shown.all
              ↔ (run tools input file fs).failure.isSome = true)))
      ∧ (run tools input file fs).warnings
        = (raised input.calledOff.stages p fs).countP fun d =>
            d.severity = .warning && DiagnosticFilter.standard.passes d := by
  have hrun : run tools input file fs = carryOut input.calledOff.stages p fs := by rw [run, h]
  obtain ⟨report, hreport, hflagged, hfailed, hwarnings⟩ :=
    exists_report_carryOut input.calledOff.stages (warns_of_mem_stages h) fs
  have hsucceeded : (carryOut input.calledOff.stages p fs).succeeded = !report.failed := by
    rw [hfailed, Result.succeeded]
    cases (carryOut input.calledOff.stages p fs).failure <;> rfl
  rw [hrun]
  refine ⟨report, hreport, fun times => ?_, fun times shown hshown => ⟨?_, fun hgiven => ?_,
    fun hgiven => ?_⟩, ?_⟩
  · simp only [Result.printed, hreport]
    exact report.render_mem_renderings times
  · obtain ⟨lead, rfl, -⟩ := Report.exists_lead hflagged hshown
    refine ⟨lead, ?_⟩
    rw [hsucceeded, Report.verdict]
    cases report.failed <;> rfl
  · rw [Report.completeWords_infix_iff hflagged hshown hgiven, hsucceeded]
    simp
  · rw [Report.failureWords_infix_iff hflagged hshown hgiven, hfailed]
  · simp only [Result.warnings, hreport, hwarnings, List.length_map, List.filter_filter,
      List.countP_eq_length_filter]

/-- The build of a page where files cannot be changed fails as it is to empty the output directory,
and is printed as failed. -/
theorem printed_verdict_locked :
    ∃ p, plan ⟨Registry.standard, fun r => .ok ⟨r.source, []⟩⟩
        ⟨"/proj", false, false, [], .one, .never⟩ (.ok [])
        ⟨.memory ⟨[("proj/src/pages/index/index.tsx", "export default 1;\n")]⟩, true⟩ = .ok p
      ∧ Report.failureWords <:+: ((run ⟨Registry.standard, fun r => .ok ⟨r.source, []⟩⟩
          ⟨"/proj", false, false, [], .one, .never⟩ (.ok [])
          ⟨.memory ⟨[("proj/src/pages/index/index.tsx", "export default 1;\n")]⟩, true⟩).printed
            fun _ => "1ms").all
      ∧ ¬ Report.completeWords <:+: ((run ⟨Registry.standard, fun r => .ok ⟨r.source, []⟩⟩
          ⟨"/proj", false, false, [], .one, .never⟩ (.ok [])
          ⟨.memory ⟨[("proj/src/pages/index/index.tsx", "export default 1;\n")]⟩, true⟩).printed
            fun _ => "1ms").all := by
  set tools : Tools := ⟨Registry.standard, fun r => .ok ⟨r.source, []⟩⟩
  set input : Input := ⟨"/proj", false, false, [], .one, .never⟩
  set fs : FileSystem :=
    ⟨.memory ⟨[("proj/src/pages/index/index.tsx", "export default 1;\n")]⟩, true⟩
  have hplanned : (plan tools input (.ok []) fs).map (fun p => p.project.root) = .ok "/proj" := by
    decide +kernel
  obtain ⟨p, hplan, -⟩ := map_eq_ok.1 hplanned
  have hfailed : (run tools input (.ok []) fs).failure.isSome = true := by decide +kernel
  have hgiven : (run tools input (.ok []) fs).report.map (fun r => r.given fun _ => "1ms")
      = some (["1ms", "/proj/dist",
        "stage clean: failed to clean output directory /proj/dist: device busy", "clean 1ms", "",
        "failed to clean output directory /proj/dist: device busy", "stage clean"]
          : List Text) := by decide +kernel
  obtain ⟨report, hreport, hprinted, hshown, -⟩ := printed_verdict hplan
  obtain ⟨-, hcomplete, hfailure⟩ := hshown _ _ (hprinted fun _ => "1ms")
  rw [hreport, Option.map_some, Option.some.injEq] at hgiven
  rw [hgiven] at hcomplete hfailure
  refine ⟨p, hplan, (hfailure (by decide +kernel)).2 hfailed, fun h => ?_⟩
  have hsucceeded := (hcomplete (by decide +kernel)).1 h
  rw [Result.succeeded, Option.isNone_iff_eq_none] at hsucceeded
  rw [hsucceeded] at hfailed
  cases hfailed

end Build

end MiniProgram
