import MiniProgram.Glob
import MiniProgram.Module
import MiniProgram.Text.Quoted

/-!
Path filters: the conditions by which a stage selects modules, judged by the output path of a module
and its entry kind.
-/

namespace MiniProgram

/-- What a filter sees of a module: its path in normal form and its entry kind. -/
structure ModulePath where
  path : Text
  entry : EntryKind
deriving DecidableEq, Repr

/-- What a filter sees of a path. -/
def ModulePath.of (path : Text) (entry : EntryKind) : ModulePath := ⟨Path.normalize path, entry⟩

/-- What a filter sees of a module. -/
def Module.modulePath (m : Module) : ModulePath := .of m.path m.entry

/-- A condition on module paths. -/
inductive PathFilter where
  | all
  | exts (extensions : List Text)
  | entries
  | nodeModules
  | globs (patterns : List Text)
  | both (first second : PathFilter)
  | either (first second : PathFilter)
  | except (filter : PathFilter)
deriving Repr

namespace PathFilter

/-- Whether a path meets the condition. -/
def accepts : PathFilter → ModulePath → Bool
  | all, _ => true
  | exts es, p => es.contains (Path.ext p.path)
  | entries, p => p.entry ≠ .none
  | nodeModules, p => Path.inNodeModules p.path
  | globs patterns, p => patterns.any fun pattern => Glob.accepts pattern p.path
  | both f g, p => f.accepts p && g.accepts p
  | either f g, p => f.accepts p || g.accepts p
  | except f, p => !f.accepts p

/-- All of some conditions. -/
def allOf (fs : List PathFilter) : PathFilter := fs.foldr both all

/-- One of some conditions. -/
def oneOf (fs : List PathFilter) : PathFilter := fs.foldr either (except all)

/-- A pattern that is not well formed. -/
structure BadPattern where
  pattern : Text
deriving DecidableEq, Repr

/-- The wording for a pattern that is not well formed. -/
def BadPattern.message (e : BadPattern) : Text :=
  "invalid include pattern " ++ Text.quote e.pattern

/-- The condition that a path matches one of some patterns, all of them well formed. -/
def ofPatterns (patterns : List Text) : Except BadPattern PathFilter :=
  match patterns.find? fun p => !Glob.isValid p with
  | some p => .error ⟨p⟩
  | none => .ok (globs patterns)

end PathFilter

end MiniProgram
