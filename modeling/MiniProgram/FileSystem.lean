import MiniProgram.FileSystem.Disk
import MiniProgram.FileSystem.Memory
import MiniProgram.Glob

/-!
File systems: in memory, on disk, or read-only. All of them offer the same operations; a read-only
one refuses changes and takes names as they are spelled.
-/

namespace MiniProgram

/-- What a file system keeps its files in. -/
inductive Store where
  | memory (m : Memory)
  | readOnly (m : Memory)
  | disk (d : Disk)
deriving DecidableEq, Repr

/-- A file system. On a locked one the removal of trees fails. -/
structure FileSystem where
  store : Store
  locked : Bool
deriving DecidableEq, Repr

namespace FileSystem

/-- The file system in memory that holds some files by path. -/
def ofFiles (files : List (Text × Text)) : FileSystem := ⟨.memory (.ofFiles files), false⟩

/-- Whether a path exists. -/
def contains (fs : FileSystem) (p : Text) : Bool :=
  match fs.store with
  | .memory m => (m.open? (Memory.key p)).isOk
  | .readOnly m => (m.open? p).isOk
  | .disk d => d.contains p

/-- The content of a file. -/
def read (fs : FileSystem) (p : Text) : Except FileError Text :=
  match fs.store with
  | .memory m => m.readName (Memory.key p)
  | .readOnly m => m.readName p
  | .disk d => d.read p

/-- The entries of a directory, in ascending order. -/
def list (fs : FileSystem) (p : Text) : Except FileError (List DirEntry) :=
  match fs.store with
  | .memory m => m.listName (Memory.key p)
  | .readOnly m => m.listName p
  | .disk d => d.list p

/-- Writes a file; on disk its directory must exist. -/
def write (fs : FileSystem) (p content : Text) : Except FileError FileSystem :=
  match fs.store with
  | .memory m => .ok { fs with store := .memory (m.put (Memory.key p) content) }
  | .readOnly _ => .error .readOnly
  | .disk d => (d.write p content).map fun d => { fs with store := .disk d }

/-- Makes a directory and those above it; in memory there is nothing to make. -/
def makeDirs (fs : FileSystem) (p : Text) : Except FileError FileSystem :=
  match fs.store with
  | .memory _ => .ok fs
  | .readOnly _ => .error .readOnly
  | .disk d => (d.makeDirs p).map fun d => { fs with store := .disk d }

/-- Writes a file and makes its directory first. -/
def writeAll (fs : FileSystem) (p content : Text) : Except FileError FileSystem := do
  (← fs.makeDirs (Path.dir p)).write p content

/-- Removes a file, on disk also an empty directory. -/
def remove (fs : FileSystem) (p : Text) : Except FileError FileSystem :=
  match fs.store with
  | .memory m => (m.remove p).map fun m => { fs with store := .memory m }
  | .readOnly _ => .error .readOnly
  | .disk d => (d.remove p).map fun d => { fs with store := .disk d }

/-- Removes a path and all that lies below it. -/
def removeAll (fs : FileSystem) (p : Text) : Except FileError FileSystem :=
  if fs.locked then .error .busy
  else
    match fs.store with
    | .memory m => .ok { fs with store := .memory (m.removeAll p) }
    | .readOnly _ => .error .readOnly
    | .disk d => (d.removeAll p).map fun d => { fs with store := .disk d }

/-- The path by which a walk over a file system in memory shows a name. -/
def rooted (name : Text) : Text := if name = ("." : Text) then "/" else "/" ++ name

/-- What a walk from a path visits, in ascending order; entries whose last segment `skip` accepts
are not followed. -/
def walk (fs : FileSystem) (skip : Text → Bool) (p : Text) : Except FileError (List Visit) :=
  match fs.store with
  | .memory m =>
    (m.walkName skip (Memory.key p)).map fun vs => vs.map fun v => { v with path := rooted v.path }
  | .readOnly m => m.walkName skip p
  | .disk d => d.walk skip p

/-! ### Views below a directory -/

/-- What a view of the tree below a directory is read by: names relative to it. -/
structure View where
  fs : FileSystem
  dir : Text
deriving DecidableEq, Repr

/-- The view of the tree below a directory. -/
def view (fs : FileSystem) (dir : Text) : Except FileError View :=
  match fs.store with
  | .memory _ =>
    if Memory.isValidName (Memory.key dir) then .ok ⟨fs, dir⟩
    else .error (.on "sub" (Memory.key dir) .invalid)
  | .readOnly _ => if Memory.isValidName dir then .ok ⟨fs, dir⟩ else .error (.on "sub" dir .invalid)
  | .disk _ => .ok ⟨fs, dir⟩

namespace View

/-- The key of a name below the directory of a view. -/
def keyOf (dir name : Text) : Text := if dir = ("." : Text) then name else Path.join [dir, name]

/-- An error with the path as the view names it. -/
def shorten (dir : Text) : FileError → FileError
  | .on op p cause =>
    if dir = ("." : Text) then .on op p cause
    else if p = dir then .on op "." cause
    else .on op (Text.trimStart p (dir ++ "/")) cause
  | e => e

/-- The content of a file below the directory. -/
def read (v : View) (name : Text) : Except FileError Text :=
  let inMemory (m : Memory) (dir : Text) : Except FileError Text :=
    if Memory.isValidName name then (m.readName (keyOf dir name)).mapError (shorten dir)
    else if dir = ("." : Text) then m.readName name
    else .error (.on "read" name .invalid)
  match v.fs.store with
  | .memory m => inMemory m (Memory.key v.dir)
  | .readOnly m => inMemory m v.dir
  | .disk d =>
    if Memory.isValidName name then d.readShown name (Path.join [v.dir, name])
    else .error (.on "readfile" name .invalid)

/-- Whether a name exists below the directory, or why that cannot be told. -/
def stat (v : View) (name : Text) : Except FileError Unit :=
  let inMemory (m : Memory) (dir : Text) : Except FileError Unit :=
    if Memory.isValidName name then
      ((m.open? (keyOf dir name)).mapError (shorten dir)).map fun _ => ()
    else if dir = ("." : Text) then (m.open? name).map fun _ => ()
    else .error (.on "open" name .invalid)
  match v.fs.store with
  | .memory m => inMemory m (Memory.key v.dir)
  | .readOnly m => inMemory m v.dir
  | .disk d =>
    if !Memory.isValidName name then .error (.on "stat" name .invalid)
    else
      match d.find (Path.clean (Path.join [v.dir, name])) with
      | .ok _ => .ok ()
      | .error cause => .error (.on "stat" name cause)

/-- The names of everything below the directory, files and directories. -/
def tree (v : View) : List Text :=
  let lead := match v.fs.store with
    | .memory _ => rooted (Memory.key v.dir)
    | _ => v.dir
  let lead := if lead = ("/" : Text) then lead else lead ++ "/"
  match v.fs.walk (fun _ => false) v.dir with
  | .ok visits => visits.filterMap fun visit => Text.after? lead visit.path
  | .error _ => []

/-- The names below the directory that match a pattern. -/
def glob (v : View) (pattern : Text) : List Text :=
  v.tree.filter fun name =>
    Text.startsWith name (Glob.lead pattern) && Glob.accepts pattern name

end View

end FileSystem

end MiniProgram
