import MiniProgram.Build

/-!
Watching a project: one build after another, each after a change of the files.

Every pass is a development build. Changes below the output directory, in installed packages and in
hidden directories are not looked at. A watch goes on until it is called off, so only its last pass
can be.
-/

namespace MiniProgram

/-- The part of a tree that is not watched: directories with some names, wherever they stand, and
hidden ones. -/
structure WatchFilter where
  root : Text
  dirs : List Text
deriving DecidableEq, Repr

namespace WatchFilter

/-- Whether a directory with a name is passed over. -/
def skipsName (w : WatchFilter) (name : Text) : Bool :=
  w.dirs.contains name || Text.startsWith name "."

/-- Whether a change of a path is passed over; so is one of the root itself or outside it. -/
def skipsPath (w : WatchFilter) (p : Text) : Bool :=
  match Path.relativeTo? w.root p with
  | none => true
  | some rel => rel = ("." : Text) || (Text.split Byte.slash rel).any w.skipsName

/-- The filter of a project. -/
def ofProject (p : Project) : WatchFilter :=
  ⟨p.root, ["node_modules", (Text.split Byte.slash p.outDirName).headD []]⟩

end WatchFilter

namespace Watch

/-- A change of a file: its new content, or `none` if it is removed. -/
structure Edit where
  path : Text
  content : Option Text
deriving DecidableEq, Repr

/-- Carries out a change, by whoever works on the files. -/
def Edit.apply (fs : FileSystem) (e : Edit) : FileSystem :=
  let changed := match e.content with
    | some content => fs.writeAll e.path content
    | none => fs.remove e.path
  match changed with
  | .ok fs => fs
  | .error _ => fs

/-- A pass of a watched build: the files before it and what it came to. -/
structure Pass where
  before : FileSystem
  result : Build.Result
deriving DecidableEq, Repr

/-- Builds once, then once more after each batch of changes. -/
def passes (tools : Build.Tools) (input : Build.Input) (fs : FileSystem) :
    List (List Edit) → List Pass
  | [] => [⟨fs, build input.calledOff fs⟩]
  | edits :: rest =>
    let result := build .never fs
    ⟨fs, result⟩ :: passes tools input (edits.foldl Edit.apply result.fs) rest
where
  /-- One pass. -/
  build (calledOff : Build.CallOff) (fs : FileSystem) : Build.Result :=
    Build.run tools { input with dev := true, calledOff := calledOff }
      (Build.readProjectFile fs input.dir) fs

/-- Watches a project, unless its settings cannot be read. -/
def run (tools : Build.Tools) (input : Build.Input) (fs : FileSystem) (batches : List (List Edit)) :
    Except Failure (List Pass) := do
  let file := Build.readProjectFile fs input.dir
  let plain : Build.Input := { input with strict := false, platform := [] }
  let _ ← withContext "failed to load config" (Build.settings plain file)
  return passes tools input fs batches

end Watch

end MiniProgram
