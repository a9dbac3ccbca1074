import MiniProgram.Text.Basic

/-!
Diagnostics: what a stage reports about a module, and the filter that decides which of them reach
the user. A filter suppresses warnings by their code; an error always passes.
-/

namespace MiniProgram

/-- How grave a diagnostic is. -/
inductive Severity where
  | warning
  | error
deriving DecidableEq, Repr

/-- The name of a severity. -/
def Severity.name : Severity → Text
  | warning => "warning"
  | error => "error"

/-- A report of a stage about a module; either may be empty. -/
structure Diagnostic where
  code : Text
  message : Text
  stage : Text
  module : Text
  severity : Severity
deriving DecidableEq, Repr

namespace Diagnostic

/-- Code of a top-level `this`. -/
def thisIsUndefined : Text := "THIS_IS_UNDEFINED"

/-- Code of a package that is left external. -/
def unresolvedImport : Text := "UNRESOLVED_IMPORT"

/-- Code of a prop the platform does not know. -/
def unknownHostProp : Text := "UNKNOWN_HOST_PROP"

/-- Code of a component the platform does not have. -/
def unknownHostComponent : Text := "UNKNOWN_HOST_COMPONENT"

/-- Code of an entry without a default export. -/
def missingDefaultExport : Text := "MISSING_DEFAULT_EXPORT"

/-- A warning about a module, not yet ascribed to a stage. -/
def warning (code module message : Text) : Diagnostic := ⟨code, message, [], module, .warning⟩

/-- The diagnostic on one line. -/
def render (d : Diagnostic) : Text :=
  let body := "(" ++ d.code ++ ") " ++ d.message
  let body := if d.module = [] then body else d.module ++ ": " ++ body
  if d.stage = [] then body else "[" ++ d.stage ++ "] " ++ body

/-- The diagnostic ascribed to a stage, unless it names one already. -/
def inStage (stage : Text) (d : Diagnostic) : Diagnostic :=
  if d.stage = [] then { d with stage := stage } else d

end Diagnostic

/-- The codes of the warnings that are not shown, in ascending order. -/
structure DiagnosticFilter where
  codes : List Text
deriving DecidableEq, Repr

namespace DiagnosticFilter

/-- The filter that suppresses the given codes; the empty code is none. -/
def ofCodes (codes : List Text) : DiagnosticFilter := ⟨Text.sortUnique (codes.filter (· ≠ []))⟩

/-- The filter a build uses. -/
def standard : DiagnosticFilter := ofCodes [Diagnostic.thisIsUndefined]

/-- Whether warnings with the code are suppressed. -/
def suppresses (f : DiagnosticFilter) (code : Text) : Bool := f.codes.contains code

/-- Whether a diagnostic passes. -/
def passes (f : DiagnosticFilter) (d : Diagnostic) : Bool :=
  !(d.severity = .warning && f.suppresses d.code)

end DiagnosticFilter

end MiniProgram
