import MiniProgram.Catalog
import MiniProgram.Console
import MiniProgram.Json.Lenient
import MiniProgram.Project
import MiniProgram.Registry

/-!
The doctor: checks of a project for what would stop a build before any stage runs.

The transpiler, the settings, the platform, the entries and the installed runtime are looked at in
this order; without settings nothing after them can be checked.
-/

namespace MiniProgram

namespace Doctor

/-- A check: its name, and what it found or why it failed. -/
structure Check where
  name : Text
  result : Except Text Text

/-- Whether a check found no fault. -/
def Check.passed (c : Check) : Bool := c.result.isOk

/-- What a check found, or why it failed. -/
def Check.detail (c : Check) : Text :=
  match c.result with
  | .ok detail => detail
  | .error message => message

/-- The line that reports a check. -/
def Check.line (c : Check) : Transcript :=
  let message := c.name ++ ": " ++ c.detail
  if c.passed then Console.successLine message else Console.errorLine message

/-- A number of things. -/
def pluralize (n : Int) (word : Text) : Text :=
  if n = 1 then "1 " ++ word else Text.ofInt n ++ " " ++ word ++ "s"

/-- A result with its failure in words. -/
def inWords {α : Type} (r : Except Failure α) (shown : α → Text) : Except Text Text :=
  match r with
  | .ok a => .ok (shown a)
  | .error f => .error f.message

/-- The installed runtime package: its name, and its version if it tells one. -/
def runtime (fs : FileSystem) (project : Project) : Except Text Text :=
  let module := project.runtimeModule
  match fs.read (Path.join [project.root, "node_modules", module, "package.json"]) with
  | .error _ => .error (module ++ " is not installed, run bun install")
  | .ok data =>
    let get (key : Text) : Text := ((Json.lookup? data key).map (·.text)).getD []
    if !Json.isValid data then .error (module ++ " has an invalid package.json")
    else if get "name" ≠ module then
      .error (module ++ " resolves to package " ++ Text.quote (get "name"))
    else if get "version" = [] then .ok module
    else .ok (module ++ "@" ++ get "version")

/-- The entries of a project. -/
def entries (fs : FileSystem) (project : Project) : Except Failure Catalog := do
  let tree ← (fs.view project.root).mapError (·.failure)
  (Catalog.discover tree project.sourceDir project.pages).mapError (·.failure)

/-- The checks of the project in a directory, given where the transpiler was found and what reading
the project file came to. -/
def checks (registry : Registry) (processors : Processors) (transpiler : Except Text Text)
    (file : Except FileError Text) (fs : FileSystem) (dir : Text) : List Check :=
  let settings : Except Failure Project := do
    (Project.resolve dir (← ProjectFile.load file) ⟨false, [], processors⟩).mapError (·.failure)
  let first : List Check := [
    ⟨"bun", transpiler⟩,
    ⟨"config", inWords settings fun _ => Path.join [dir, ProjectFile.fileName]⟩]
  match settings with
  | .error _ => first
  | .ok project =>
    let platform := (registry.platform project.platform).mapError (·.failure)
    first ++ [
      ⟨"platform", inWords platform fun _ => project.platform⟩,
      ⟨"entries", inWords (entries fs project) fun c => pluralize c.pages.length "page"⟩,
      ⟨"runtime", runtime fs project⟩]

/-- What is printed about checks. -/
def render (cs : List Check) : Transcript := Console.header "Mini Doctor" ++ cs.flatMap (·.line)

end Doctor

end MiniProgram
