import MiniProgram.FileSystem.Error
import MiniProgram.Path
import MiniProgram.Text.Utf8

/-!
File systems in memory.

Files are stored by key, the cleaned path without its leading slash; directories exist by the files
below them. A key may be a file although other keys lie below it, and is a file then.
-/

namespace MiniProgram

/-- The stored files, each key once. -/
structure Memory where
  files : List (Text × Text)
deriving DecidableEq, Repr

namespace Memory

/-- The key of a path: its cleaned form without the leading slash, `.` for the root. -/
def key (p : Text) : Text :=
  let q := Text.trimStart (Path.clean p) "/"
  if q = [] then "." else q

/-- The file system without files. -/
def empty : Memory := ⟨[]⟩

/-- The content stored under a key. -/
def get? (m : Memory) (k : Text) : Option Text := m.files.lookup k

/-- Stores content under a key, in the place of what was there. -/
def put (m : Memory) (k content : Text) : Memory :=
  if m.files.any (·.1 = k) then
    ⟨m.files.map fun f => if f.1 = k then (k, content) else f⟩
  else ⟨m.files ++ [(k, content)]⟩

/-- The file system that holds some files by path. -/
def ofFiles (files : List (Text × Text)) : Memory :=
  files.foldl (fun m (p, content) => m.put (key p) content) empty

/-! ### Looking at a name -/

/-- Whether a name can be looked up: well-formed text, and either the root or non-empty segments,
none of them `.` or `..`. -/
def isValidName (name : Text) : Bool :=
  Text.valid name && (name = ("." : Text) ||
    (Text.split Byte.slash name).all fun s => s ≠ [] && s ≠ ("." : Text) && s ≠ (".." : Text))

/-- What a name stands for. -/
inductive Entry where
  | file (content : Text)
  | dir (entries : List DirEntry)
deriving DecidableEq, Repr

/-- What remains of a key below a directory. -/
def below? (name k : Text) : Option Text :=
  if name = ("." : Text) then (if k = ("." : Text) then none else some k)
  else Text.after? (name ++ "/") k

/-- The names in a directory, in ascending order. One that is a file itself is listed as a file. -/
def children (m : Memory) (name : Text) : List DirEntry :=
  let rests := m.files.filterMap fun (k, _) => below? name k
  let files := rests.filter fun r => Byte.slash ∉ r
  let names := Text.sortUnique (rests.map fun r => r.takeWhile (· ≠ Byte.slash))
  names.map fun n => ⟨n, !files.contains n⟩

/-- What a name stands for, or the error of opening it. -/
def open? (m : Memory) (name : Text) : Except FileError Entry :=
  if !isValidName name then .error (.on "open" name .notStored)
  else
    match m.get? name with
    | some content => .ok (.file content)
    | none =>
      match m.children name with
      | [] => if name = ("." : Text) then .ok (.dir []) else .error (.on "open" name .notStored)
      | entries => .ok (.dir entries)

/-- The content of the file with a name. -/
def readName (m : Memory) (name : Text) : Except FileError Text := do
  match ← m.open? name with
  | .file content => return content
  | .dir _ => throw (.on "read" name .invalid)

/-- The entries of the directory with a name. -/
def listName (m : Memory) (name : Text) : Except FileError (List DirEntry) := do
  match ← m.open? name with
  | .file _ => throw (.on "readdir" name .unsupported)
  | .dir entries => return entries

/-! ### Changes -/

/-- Removes the file stored under the key of a path. -/
def remove (m : Memory) (p : Text) : Except FileError Memory :=
  if (m.get? (key p)).isSome then .ok ⟨m.files.filter (·.1 ≠ key p)⟩
  else .error (.on "remove" p .notStored)

/-- Whether a key is another one or lies below it. -/
def covers (top k : Text) : Bool := k = top || Text.startsWith k (top ++ "/")

/-- Removes the files stored under the key of a path and below it. -/
def removeAll (m : Memory) (p : Text) : Memory := ⟨m.files.filter fun f => !covers (key p) f.1⟩

/-- The path of every stored file, in ascending order. -/
def paths (m : Memory) : List Text := Text.sort (m.files.map fun f => "/" ++ f.1)

/-! ### Walking -/

/-- Visits a name and what lies below it, in ascending order, on the given fuel; `skip` tells by its
last segment which entry is not followed. The flag tells whether the rest of the directory around it
is passed over too, as after a file that is not followed. -/
def walkFrom (m : Memory) (skip : Text → Bool) : (fuel : Nat) → (name : Text) → (isDir : Bool) →
    List Visit × Bool
  | 0, _, _ => ([], false)
  | fuel + 1, name, isDir =>
    let visit : Visit := ⟨name, isDir⟩
    if skip (Path.base name) then ([visit], !isDir)
    else if isDir then
      let (visits, _) := (m.children name).foldl (fun (acc : List Visit × Bool) e =>
        if acc.2 then acc
        else
          let (visits, stop) := walkFrom m skip fuel (Path.join [name, e.name]) e.isDir
          (acc.1 ++ visits, stop)) ([], false)
      (visit :: visits, false)
    else ([visit], false)

/-- The depth of the deepest file. -/
def depth (m : Memory) : Nat :=
  m.files.foldl (fun d f => max d ((Text.split Byte.slash f.1).length)) 0

/-- What a walk from a name visits, or the error of opening it. -/
def walkName (m : Memory) (skip : Text → Bool) (name : Text) : Except FileError (List Visit) := do
  match ← m.open? name with
  | .file _ => return (m.walkFrom skip (m.depth + 2) name false).1
  | .dir _ => return (m.walkFrom skip (m.depth + 2) name true).1

end Memory

end MiniProgram
