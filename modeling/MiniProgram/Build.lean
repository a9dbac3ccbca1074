import MiniProgram.Output
import MiniProgram.Pipeline
import MiniProgram.Report

/-!
Builds: one pass from the project file to the written output.

A build resolves the settings, discovers the entries, makes the stages, runs them over the seed
module and writes the bundle. What happens before the first stage leaves no report.
-/

namespace MiniProgram

namespace Build

/-- When a build is called off: after it ran a number of stages, or after its walk over imports
visited a number of modules; without a number it is not. -/
structure CallOff where
  stages : Option Nat
  visits : Option Nat
deriving DecidableEq, Repr

/-- A build that is not called off. -/
def CallOff.never : CallOff := ⟨none, none⟩

/-- What a build is asked for, and what it runs under: the processors of the machine and when it is
called off. -/
structure Input where
  dir : Text
  dev : Bool
  strict : Bool
  platform : Text
  processors : Processors
  calledOff : CallOff
deriving DecidableEq, Repr

/-- What builds have in common: the platforms and the transpiler. -/
structure Tools where
  registry : Registry
  transformer : Transformer

/-- What a build came to. -/
structure Result where
  written : List Text
  report : Option Report
  fs : FileSystem
  failure : Option Failure
deriving DecidableEq, Repr

namespace Result

/-- Whether a build succeeded. -/
def succeeded (r : Result) : Bool := r.failure.isNone

/-- The number of warnings reported. -/
def warnings (r : Result) : Nat :=
  match r.report with
  | some report => report.warnings.length
  | none => 0

/-- What a build prints. -/
def printed (times : Report.Times) (r : Result) : Transcript :=
  match r.report with
  | some report => report.render times
  | none => []

end Result

/-- What a build runs: the settings, the entries and the stages. -/
structure Plan where
  project : Project
  catalog : Catalog
  stages : List Stage

/-- The settings of the project in a directory, given what reading the project file came to. -/
def settings (input : Input) (file : Except FileError Text) : Except Failure Project := do
  let f ← ProjectFile.load file
  let overrides : Overrides := ⟨input.strict, input.platform, input.processors⟩
  (Project.resolve input.dir f overrides).mapError (·.failure)

/-- The entries of a project. -/
def discover (fs : FileSystem) (project : Project) : Except Failure Catalog := do
  let tree ← withContext "failed to open project" ((fs.view project.root).mapError (·.failure))
  withContext "failed to discover entries"
    ((Catalog.discover tree project.sourceDir project.pages).mapError (·.failure))

/-- Plans a build. -/
def plan (tools : Tools) (input : Input) (file : Except FileError Text) (fs : FileSystem) :
    Except Failure Plan := do
  let project ← withContext "failed to load config" (settings input file)
  let catalog ← discover fs project
  let deps : Deps := ⟨some project, some catalog, some tools.registry, true,
    some tools.transformer, input.calledOff.visits⟩
  let stages ← withContext "failed to assemble pipeline" (Pipeline.assemble input.dev deps)
  return ⟨project, catalog, stages⟩

/-- The failure of a result in words. -/
def words? {α : Type} : Except Failure α → Option Text
  | .ok _ => none
  | .error f => some f.message

/-- Records a stage that was run. -/
def recordStep (r : Report) (s : Pipeline.Step) : Report :=
  (s.diagnostics.foldl Report.add r).addStep s.stage (words? s.result)

/-- A failure as a problem of the module it arose in. -/
def problemOf (f : Failure) : Report.Problem :=
  match f.site with
  | some site => ⟨site.module, site.cause, ["stage " ++ site.stage]⟩
  | none => ⟨[], f.message, []⟩

/-- Carries out a plan, unless it is called off after a number of stages. -/
def carryOut (calledOff : Option Nat) (p : Plan) (fs : FileSystem) : Result :=
  let outDir := p.project.outDir
  let run := Pipeline.run .standard calledOff p.stages fs
    [p.catalog.seed [p.project.runtimeModule]]
  let report := run.steps.foldl recordStep
    { Report.start outDir with pages := p.catalog.pages.length }
  match run.result with
  | .error f => ⟨[], some (report.addError (problemOf f)), run.fs, some f⟩
  | .ok bundle =>
    let written := Output.write run.fs outDir bundle
    let report := { report with modules := bundle.modules.length }.addStep "write"
      (written.failure.map Failure.message)
    ⟨written.paths, some report, written.fs, written.failure⟩

/-- Builds a project, given what reading its project file came to. -/
def run (tools : Tools) (input : Input) (file : Except FileError Text) (fs : FileSystem) : Result :=
  match plan tools input file fs with
  | .error f => ⟨[], none, fs, some f⟩
  | .ok p => carryOut input.calledOff.stages p fs

/-- What reading the project file of a directory comes to. -/
def readProjectFile (fs : FileSystem) (dir : Text) : Except FileError Text :=
  fs.read (Path.join [dir, ProjectFile.fileName])

end Build

end MiniProgram
