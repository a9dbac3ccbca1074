import MiniProgram.Console
import MiniProgram.FileSystem
import MiniProgram.Scaffold.Files
import MiniProgram.Template

/-!
Scaffolds: the projects a new one can be started from.

`create` fills the templates of a scaffold and writes its files into a directory, which must not
hold anything yet.
-/

namespace MiniProgram

/-- The scaffolds there are. -/
inductive Scaffold where
  | minimal
  | less
deriving DecidableEq, Repr

namespace Scaffold

/-- The scaffolds, the preferred one first. -/
def all : List Scaffold := [minimal, less]

/-- The name of a scaffold. -/
def name : Scaffold → Text
  | minimal => "minimal"
  | less => "less"

/-- The names of the scaffolds, in one line. -/
def nameList : Text := Text.join ", " (all.map name)

/-- The files of a scaffold, as they are kept. -/
def files : Scaffold → List Asset
  | minimal => minimalFiles
  | less => lessFiles

/-- The scaffold with a name. -/
def ofName (t : Text) : Except Failure Scaffold :=
  match all.find? (·.name = t) with
  | some s => .ok s
  | none =>
    .error (.of .invalidTemplate
      ("invalid template name: " ++ Text.quote t ++ " (want one of " ++ nameList ++ ")"))

/-- The name of a file once it is written, and whether it is a template. -/
def target (path : Text) : Text × Bool :=
  if Text.endsWith path ".tmpl" then (Text.trimEnd path ".tmpl", true) else (path, false)

/-- The content of a file once it is written; `none` if its template cannot be filled. -/
def fill? (data : Template.Fields) (isTemplate : Bool) (content : Text) : Option Text :=
  if isTemplate then Template.render? data content else some content

/-- The name of the project in a directory. -/
def projectName (dir : Text) : Text :=
  let base := Path.base dir
  if base = ("." : Text) || base = ("/" : Text) then "mini-app" else base

/-! ### Creating a project -/

/-- What a project is created from; an empty scaffold or platform stands for the preferred one. -/
structure Request where
  dir : Text
  scaffold : Text
  platform : Text
deriving DecidableEq, Repr

/-- What creating a project came to: the files written, what was printed, and the failure that ended
it if there was one. -/
structure Created where
  paths : List Text
  printed : Transcript
  fs : FileSystem
  failure : Option Failure
deriving DecidableEq, Repr

/-- Writes one file of a scaffold. -/
def writeFile (dir : Text) (data : Template.Fields) (fs : FileSystem) (file : Asset) :
    Except Failure FileSystem :=
  let (path, isTemplate) := target file.path
  match fill? data isTemplate file.content with
  | none => .error (.plain ("failed to render " ++ file.path))
  | some content =>
    let path := Path.join [dir, path]
    (fs.writeAll path content).mapError fun e => e.failure.within ("failed to write file " ++ path)

/-- The line that reports a file. -/
def fileLine (file : Asset) : Transcript :=
  let (path, isTemplate) := target file.path
  Console.file (if isTemplate then path ++ " (generated)" else path)

/-- Writes the files of a scaffold until one fails. -/
def writeFiles (dir : Text) (data : Template.Fields) (state : Created) : List Asset → Created
  | [] => state
  | file :: rest =>
    match writeFile dir data state.fs file with
    | .error f => { state with failure := some f }
    | .ok fs =>
      writeFiles dir data
        { state with
          paths := state.paths ++ [(target file.path).1]
          printed := state.printed ++ fileLine file
          fs := fs }
        rest

/-- Why nothing can be created in a directory. -/
def obstacle? (fs : FileSystem) (dir : Text) : Option Failure :=
  if fs.contains dir then
    match fs.list dir with
    | .error e => some (e.failure.within "failed to read directory")
    | .ok [] => none
    | .ok _ => some (.plain ("directory '" ++ dir ++ "' already exists and is not empty"))
  else none

/-- What is printed once a project has been created. -/
def closing (r : Request) (scaffold : Scaffold) (count : Nat) : Transcript :=
  Console.done
      ("Created " ++ Text.ofNat count ++ " files using '" ++ scaffold.name ++ "' template")
    ++ Console.step "Next steps:" [] ++ Console.step "  cd %s" [r.dir]
    ++ Console.step "  bun install" [] ++ Console.step "  mini-build --dev --watch" []

/-- Creates a project. -/
def create (fs : FileSystem) (r : Request) : Created :=
  let begun : Created := ⟨[], Console.header "Mini Init", fs, none⟩
  let name : Text := if r.scaffold = [] then minimal.name else r.scaffold
  match obstacle? fs r.dir, all.find? (·.name = name) with
  | some f, _ => { begun with failure := some f }
  | none, none => { begun with failure := some (.plain ("invalid template '" ++ name ++ "'")) }
  | none, some scaffold =>
    let platform : Text := if r.platform = [] then "toutiao" else r.platform
    let done := writeFiles r.dir ⟨projectName r.dir, platform⟩ begun scaffold.files
    if done.failure.isSome then done
    else { done with printed := done.printed ++ closing r scaffold done.paths.length }

end Scaffold

end MiniProgram
