import MiniProgram.Bundle
import MiniProgram.Catalog
import MiniProgram.HostPolicy
import MiniProgram.PathFilter

/-!
Stages: the steps of a build.

A stage may act before it starts, transform each module it includes on its own, and act on the
bundle as a whole. Its role says what kind of step it is, and a pipeline is put in order by roles.
-/

namespace MiniProgram

/-- The kinds of stages. -/
inductive Role where
  | clean
  | report
  | resolve
  | interop
  | transform
  | component
  | style
  | rename
  | strip
  | emit
deriving DecidableEq, Repr

namespace Role

/-- The name of a role. -/
def name : Role → Text
  | clean => "clean"
  | report => "report"
  | resolve => "resolve"
  | interop => "interop"
  | transform => "transform"
  | component => "component"
  | style => "style"
  | rename => "rename"
  | strip => "strip"
  | emit => "emit"

/-- The roles in their numbering. -/
def all : List Role :=
  [clean, report, resolve, interop, transform, component, style, rename, strip, emit]

/-- Whether stages of the role change the content of modules. -/
def isContent : Role → Bool
  | interop | transform | component | style | rename => true
  | _ => false

end Role

/-! ### Transpiling -/

/-- What a transpiler is asked for. -/
structure TransformRequest where
  path : Text
  source : Text
  dialect : Dialect
deriving DecidableEq, Repr

/-- What a transpiler answers; an empty map means that there is none. -/
structure TransformResult where
  code : Text
  map : Text
deriving DecidableEq, Repr

/-- Turns a script of any dialect into plain JavaScript. -/
abbrev Transformer := TransformRequest → Except Failure TransformResult

/-! ### Stages -/

/-- What a pipeline is put in order by: the name and role of a stage and the extensions it works
on. -/
structure StageInfo where
  name : Text
  role : Role
  consumes : List Text
deriving DecidableEq, Repr

/-- A stage of a build. Without a filter it includes every module. -/
structure Stage extends StageInfo where
  filter : Option PathFilter
  start : Option (FileSystem → Except Failure FileSystem)
  transform : Option (Module → Outcome Module)
  finish : Option (FileSystem → Bundle → Outcome Bundle)

namespace Stage

/-- The stage that does nothing. -/
def idle (name : Text) (role : Role) : Stage := ⟨⟨name, role, []⟩, none, none, none, none⟩

/-- Whether a stage includes a path. -/
def includes (s : Stage) (p : ModulePath) : Bool := s.filter.all (·.accepts p)

end Stage

/-- What stages are made from; any part may be missing. A number of visits is that after which the
walk over imports is called off. -/
structure Deps where
  project : Option Project
  catalog : Option Catalog
  registry : Option Registry
  hasFiles : Bool
  transformer : Option Transformer
  visits : Option Nat

namespace Deps

/-- A part that a stage needs. -/
def need {α : Type} (stage part : Text) (a : Option α) : Except Failure α :=
  match a with
  | some a => .ok a
  | none => .error (.plain ("stage " ++ stage ++ ": missing " ++ part))

/-- The project a stage needs. -/
def needProject (d : Deps) (stage : Text) : Except Failure Project := need stage "project" d.project

/-- The catalog a stage needs. -/
def needCatalog (d : Deps) (stage : Text) : Except Failure Catalog := need stage "catalog" d.catalog

/-- The registry a stage needs. -/
def needRegistry (d : Deps) (stage : Text) : Except Failure Registry :=
  need stage "registry" d.registry

/-- The transpiler a stage needs. -/
def needTransformer (d : Deps) (stage : Text) : Except Failure Transformer :=
  need stage "transformer" d.transformer

/-- The file system a stage needs. -/
def needFiles (d : Deps) (stage : Text) : Except Failure Unit :=
  need stage "fs" (if d.hasFiles then some () else none)

end Deps

/-- Makes a stage. -/
abbrev StageMaker := Deps → Except Failure Stage

end MiniProgram
