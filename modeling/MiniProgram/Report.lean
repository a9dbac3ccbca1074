import MiniProgram.Console
import MiniProgram.Diagnostic

/-!
Build reports: the steps a build took and the problems it met, printed once it has ended.

A report without problems is short: the counts, the failed steps if there are any, and the verdict.
One with problems lists every step and then the problems, module by module. Verdicts of failure and
errors go to the stream of complaints.
-/

namespace MiniProgram

namespace Report

/-- A step of a build: whether it has succeeded, which one that never ended has not, and the last
error it ended with. -/
structure Step where
  name : Text
  succeeded : Bool
  error : Text
deriving DecidableEq, Repr

namespace Step

/-- A step that has been started. -/
def start (name : Text) : Step := ⟨name, false, []⟩

/-- The step once it has ended, with an error or without. -/
def finish (s : Step) (error : Option Text) : Step :=
  { s with succeeded := error.isNone, error := error.getD s.error }

end Step

/-- A problem of a module; the empty module stands for the build as a whole. -/
structure Problem where
  module : Text
  message : Text
  details : List Text
deriving DecidableEq, Repr

/-- Tells the time a step took, or the whole build. -/
abbrev Times := Option Step → Text

end Report

/-- What is known about a build. -/
structure Report where
  outputDir : Text
  pages : Int
  modules : Int
  steps : List Report.Step
  warnings : List Report.Problem
  errors : List Report.Problem
  failed : Bool
deriving DecidableEq, Repr

namespace Report

/-- The report of a build that has just begun. -/
def start (outputDir : Text) : Report := ⟨outputDir, 0, 0, [], [], [], false⟩

/-! ### Recording -/

/-- Records that a step starts. -/
def startStep (r : Report) (name : Text) : Report := { r with steps := r.steps ++ [.start name] }

/-- Ends the last step with a name. -/
def endStep (r : Report) (name : Text) (error : Option Text) : Report :=
  let later := (r.steps.reverse.takeWhile (·.name ≠ name)).reverse
  match (r.steps.take (r.steps.length - later.length)).reverse with
  | [] => r
  | s :: earlier =>
    { r with
      steps := earlier.reverse ++ s.finish error :: later
      failed := r.failed || error.isSome }

/-- Records a step that starts and ends. -/
def addStep (r : Report) (name : Text) (error : Option Text) : Report :=
  { r with
    steps := r.steps ++ [(Step.start name).finish error]
    failed := r.failed || error.isSome }

/-- Records a warning. -/
def addWarning (r : Report) (p : Problem) : Report := { r with warnings := r.warnings ++ [p] }

/-- Records an error. -/
def addError (r : Report) (p : Problem) : Report :=
  { r with errors := r.errors ++ [p], failed := true }

/-- A diagnostic as a problem. -/
def Problem.ofDiagnostic (d : Diagnostic) : Problem where
  module := d.module
  message := "(" ++ d.code ++ ") " ++ d.message
  details := if d.stage = [] then [] else ["stage " ++ d.stage]

/-- Records a diagnostic. -/
def add (r : Report) (d : Diagnostic) : Report :=
  match d.severity with
  | .error => r.addError (.ofDiagnostic d)
  | .warning => r.addWarning (.ofDiagnostic d)

/-! ### Printing -/

/-- The items, each once, with the number of its occurrences if there are more than one. -/
def countOccurrences (items : List Text) : List Text :=
  items.eraseDups.map fun item =>
    let n := items.count item
    if 1 < n then item ++ " (" ++ Text.ofNat n ++ " occurrences)" else item

/-- The problems of one module under its name. -/
def renderModule (mark module : Text) (problems : List Problem) : Text :=
  let name : Text := if module = [] then "(build)" else module
  let message (p : Problem) : Text := "    " ++ p.message ++ "\n"
  let detail (d : Text) : Text := "      • " ++ d ++ "\n"
  "  " ++ mark ++ " " ++ name ++ "\n" ++ problems.flatMap message
    ++ (countOccurrences (problems.flatMap (·.details))).flatMap detail

/-- The problems, module by module in ascending order. -/
def renderProblems (mark : Text) (problems : List Problem) : Text :=
  (Text.sortUnique (problems.map (·.module))).flatMap fun module =>
    renderModule mark module (problems.filter (·.module = module))

/-- The counts of pages and modules. -/
def counts (r : Report) : Text :=
  Text.ofInt r.pages ++ " pages, " ++ Text.ofInt r.modules ++ " modules\n"

/-- The verdict on a build that succeeded. -/
def complete (times : Times) : Transcript :=
  Console.out ("  " ++ Console.check ++ " Build complete in " ++ times none ++ "\n")

/-- The verdict on a build that failed. -/
def failure (times : Times) : Transcript :=
  Console.err ("  Build failed after " ++ times none ++ "\n")

/-- The line that names the output directory. -/
def outputLine (r : Report) : Transcript :=
  if r.outputDir = [] then [] else Console.out ("\n  Output: " ++ r.outputDir ++ "\n")

/-- The short report. -/
def renderShort (times : Times) (r : Report) : Transcript :=
  let failed := r.steps.filter fun s => !s.succeeded
  let verdict :=
    if failed = [] && !r.failed then complete times
    else
      let line (s : Step) : Text :=
        "  " ++ Console.cross ++ " " ++ s.name ++ ": " ++ s.error ++ "\n"
      Console.out ("\nFailed steps:\n" ++ failed.flatMap line ++ "\n") ++ failure times
  Console.out ("  " ++ Console.check ++ " " ++ r.counts) ++ verdict ++ r.outputLine

/-- The line of a step. -/
def stepLine (times : Times) (s : Step) : Text :=
  let mark := if s.succeeded then Console.check else Console.cross
  "  " ++ mark ++ " " ++ s.name ++ " " ++ times (some s) ++ "\n"

/-- The report that lists problems. -/
def renderLong (times : Times) (r : Report) : Transcript :=
  let errors :=
    if r.errors = [] then []
    else
      Console.out "\n" ++ Console.err ("  " ++ Console.cross ++ " Errors ("
        ++ Text.ofNat r.errors.length ++ "):\n" ++ renderProblems Console.cross r.errors)
  let warnings :=
    if r.warnings = [] then []
    else
      Console.out ("\n  " ++ Console.warningSign ++ " Warnings (" ++ Text.ofNat r.warnings.length
        ++ "):\n" ++ renderProblems Console.warningSign r.warnings)
  Console.out ("  " ++ r.counts ++ "\n" ++ r.steps.flatMap (stepLine times))
    ++ errors ++ warnings ++ Console.out "\n"
    ++ (if r.failed then failure times else complete times) ++ r.outputLine

/-- Prints a report. -/
def render (times : Times) (r : Report) : Transcript :=
  if r.errors = [] && r.warnings = [] then r.renderShort times else r.renderLong times

end Report

end MiniProgram
