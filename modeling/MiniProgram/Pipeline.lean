import MiniProgram.Pipeline.Order
import MiniProgram.Stage.Clean
import MiniProgram.Stage.Content
import MiniProgram.Stage.Emit
import MiniProgram.Stage.Graph
import MiniProgram.Stage.Layout

/-!
Pipelines: making the stages of a build and running them over a bundle.

A stage runs its start, then its transform on each included module on its own, then its finish on
the bundle. Every module of a stage is transformed even if one fails; the first failure in bundle
order ends the run, and no module is changed then. A run that is called off ends before the next
stage.
-/

namespace MiniProgram

namespace Pipeline

/-! ### Assembly -/

/-- The stages of a production build, in order. -/
def order : List Text :=
  ["clean", "progress", "resolve", "commonjs", "script", "page", "style", "rename", "strip",
    "template"]

/-- The names of the stages of a build; a development build does not clean. -/
def names (dev : Bool) : List Text := order.filter fun n => !(dev && n = ("clean" : Text))

/-- The makers of stages by name. -/
abbrev Makers := List (Text × StageMaker)

/-- The makers of all stages. -/
def makers : Makers := [
  ("clean", Stage.clean), ("progress", Stage.progress), ("resolve", Stage.resolve),
  ("commonjs", Stage.commonjs), ("script", Stage.script), ("page", Stage.page),
  ("style", Stage.style), ("rename", Stage.rename), ("strip", Stage.strip),
  ("template", Stage.template)]

/-- Makes the stage with a name. -/
def make (makers : Makers) (deps : Deps) (name : Text) : Except Failure Stage :=
  match makers.lookup name with
  | none => .error (.plain ("no factory registered for stage " ++ name))
  | some maker => do
    let s ← withContext ("failed to build stage " ++ name) (maker deps)
    if s.name = name then return s
    else throw (.plain ("factory for " ++ name ++ " built stage " ++ s.name))

/-- Makes the stages of a build and checks their order. -/
def assembleWith (makers : Makers) (dev : Bool) (deps : Deps) : Except Failure (List Stage) := do
  match deps.project with
  | none => throw (ProjectFile.invalid "project config is required")
  | some project =>
    let stages ← (names dev).mapM (make makers deps)
    match flaw? (stages.map (·.toStageInfo)) dev project.renameRules with
    | some flaw => throw flaw.failure
    | none => return stages

/-- Makes the stages of a build by the makers of all stages. -/
def assemble (dev : Bool) (deps : Deps) : Except Failure (List Stage) :=
  assembleWith makers dev deps

/-! ### Running -/

/-- What a run works on. -/
structure State where
  fs : FileSystem
  bundle : Bundle
deriving DecidableEq, Repr

/-- What running one stage came to: how many modules it transformed, the diagnostics that passed the
filter, and the state after it. -/
structure Step where
  stage : Text
  transformed : Nat
  diagnostics : List Diagnostic
  result : Except Failure State

/-- The modules a stage transforms. -/
def included (s : Stage) (b : Bundle) : List Module :=
  b.modules.filter fun m => !m.seed && s.includes m.modulePath

/-- The outcome of a stage's transform on a module, its failure ascribed to both. -/
def transformOne (s : Stage) (f : Module → Outcome Module) (m : Module) : Outcome Module :=
  let outcome := f m
  { outcome with result := outcome.result.mapError (·.atStage s.name m.id) }

/-- The bundle after the modules of a stage were transformed: all of them, or none if one failed. -/
def transformAll (s : Stage) (f : Module → Outcome Module) (b : Bundle) : Outcome Bundle :=
  let outcomes := (included s b).map (transformOne s f)
  { diagnostics := outcomes.flatMap (·.diagnostics)
    result := (outcomes.mapM fun (o : Outcome Module) => o.result).map fun ms =>
      ms.foldl Bundle.put b }

/-- Runs one stage. -/
def runStage (filter : DiagnosticFilter) (s : Stage) (state : State) : Step :=
  let shown (ds : List Diagnostic) := (ds.map (·.inStage s.name)).filter filter.passes
  match (s.start.getD .ok) state.fs with
  | .error f => ⟨s.name, 0, [], .error (f.atStage s.name [])⟩
  | .ok fs =>
    let n := if s.transform.isSome then (included s state.bundle).length else 0
    let transformed := match s.transform with
      | some f => transformAll s f state.bundle
      | none => .ok state.bundle
    match transformed.result with
    | .error f => ⟨s.name, n, shown transformed.diagnostics, .error f⟩
    | .ok b =>
      let finished := match s.finish with
        | some f => f fs b
        | none => .ok b
      { stage := s.name
        transformed := n
        diagnostics := shown (transformed.diagnostics ++ finished.diagnostics)
        result := (finished.result.mapError (·.atStage s.name [])).map fun b => ⟨fs, b⟩ }

/-- A run: the steps it took, the last of which may have failed, and what it came to. -/
structure Run where
  steps : List Step
  fs : FileSystem
  result : Except Failure Bundle

/-- Runs stages over a state until one fails, or the run is called off: after a number of stages
if there is one, it starts no other. -/
def runFrom (filter : DiagnosticFilter) : Option Nat → State → List Stage → Run
  | _, state, [] => ⟨[], state.fs, .ok state.bundle⟩
  | calledOff, state, s :: rest =>
    if calledOff = some 0 then ⟨[], state.fs, .error .canceled⟩
    else
      let step := runStage filter s state
      match step.result with
      | .error f => ⟨[step], state.fs, .error f⟩
      | .ok next =>
        let run := runFrom filter (calledOff.map Nat.pred) next rest
        { run with steps := step :: run.steps }

/-- Runs stages over a bundle of some modules. -/
def run (filter : DiagnosticFilter) (calledOff : Option Nat) (stages : List Stage)
    (fs : FileSystem) (seed : List Module) : Run :=
  runFrom filter calledOff ⟨fs, Bundle.ofModules seed⟩ stages

end Pipeline

end MiniProgram
