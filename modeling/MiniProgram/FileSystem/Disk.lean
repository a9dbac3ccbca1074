import MiniProgram.FileSystem.Error
import MiniProgram.Path
import MiniProgram.Text.Utf8

/-!
File systems on disk: files and directories by their absolute paths. A directory exists on its own,
and a file cannot lie below another file.
-/

namespace MiniProgram

/-- The directories and files by their cleaned absolute paths; `none` stands for a directory. -/
structure Disk where
  nodes : List (Text × Option Text)
deriving DecidableEq, Repr

namespace Disk

/-- The disk that holds only its root. -/
def empty : Disk := ⟨[("/", none)]⟩

/-- What stands at a path. -/
def get? (d : Disk) (p : Text) : Option (Option Text) := d.nodes.lookup p

/-- Puts a directory or file at a path, in the place of what was there. -/
def put (d : Disk) (p : Text) (node : Option Text) : Disk :=
  if d.nodes.any (·.1 = p) then ⟨d.nodes.map fun n => if n.1 = p then (p, node) else n⟩
  else ⟨d.nodes ++ [(p, node)]⟩

/-- The directories above a path, the root first. -/
def ancestors (p : Text) : List Text :=
  let segments := Path.segments (Text.trimStart p "/")
  (List.range segments.length).map fun n => "/" ++ Text.join "/" (segments.take n)

/-- Why a path cannot be reached: something above it is missing or no directory. -/
def obstacle? (d : Disk) (p : Text) : Option FileCause :=
  (ancestors p).findSome? fun a =>
    match d.get? a with
    | none => some .noEntry
    | some none => none
    | some (some _) => some .notDirectory

/-- What stands at a path, or why nothing does. -/
def find (d : Disk) (p : Text) : Except FileCause (Option Text) :=
  match d.obstacle? p with
  | some cause => .error cause
  | none =>
    match d.get? p with
    | some node => .ok node
    | none => .error .noEntry

/-- Whether a path exists. -/
def contains (d : Disk) (p : Text) : Bool := (d.find (Path.clean p)).isOk

/-- The content of a file; the error names the path as `shown`. -/
def readShown (d : Disk) (shown p : Text) : Except FileError Text :=
  match d.find (Path.clean p) with
  | .error cause => .error (.on "open" shown cause)
  | .ok none => .error (.on "read" shown .isDirectory)
  | .ok (some content) => .ok content

/-- The content of a file. -/
def read (d : Disk) (p : Text) : Except FileError Text := d.readShown p p

/-- The entries of a directory, in ascending order. -/
def children (d : Disk) (p : Text) : List DirEntry :=
  let lead := if p = ("/" : Text) then p else p ++ "/"
  (d.nodes.filterMap fun (q, node) =>
    (Text.after? lead q).bind fun name =>
      if name = [] || Byte.slash ∈ name then none else some ⟨name, node.isNone⟩).mergeSort
    fun a b => Text.le a.name b.name

/-- The entries of a directory. -/
def list (d : Disk) (p : Text) : Except FileError (List DirEntry) :=
  match d.find (Path.clean p) with
  | .error cause => .error (.on "open" p cause)
  | .ok (some _) => .error (.on "open" p .notDirectory)
  | .ok none => .ok (d.children (Path.clean p))

/-- Writes a file, whose directory must exist. -/
def write (d : Disk) (p content : Text) : Except FileError Disk :=
  let q := Path.clean p
  match d.obstacle? q with
  | some cause => .error (.on "open" p cause)
  | none =>
    match d.get? q with
    | some none => .error (.on "open" p .isDirectory)
    | _ => .ok (d.put q (some content))

/-- Makes a directory and those above it. -/
def makeDirs (d : Disk) (p : Text) : Except FileError Disk :=
  let q := Path.clean p
  (ancestors q ++ [q]).foldlM (fun d a =>
    match d.get? a with
    | some none => .ok d
    | some (some _) => .error (.on "mkdir" a .notDirectory)
    | none => .ok (d.put a none)) d

/-- Whether a path is another one or lies below it. -/
def covers (top p : Text) : Bool := p = top || Text.startsWith p (top ++ "/")

/-- Removes a file or an empty directory. -/
def remove (d : Disk) (p : Text) : Except FileError Disk :=
  let q := Path.clean p
  match d.find q with
  | .error cause => .error (.on "remove" p cause)
  | .ok node =>
    if node.isNone && !(d.children q).isEmpty then .error (.on "remove" p .notEmpty)
    else .ok ⟨d.nodes.filter (·.1 ≠ q)⟩

/-- Removes a file or directory with all that lies below it. -/
def removeAll (d : Disk) (p : Text) : Except FileError Disk :=
  let q := Path.clean p
  match d.obstacle? q with
  | some .notDirectory =>
    if (d.get? (Path.dir q)).isSome then .error (.on "unlinkat" q .notDirectory)
    else .error (.on "open" (Path.dir q) .notDirectory)
  | _ => .ok ⟨d.nodes.filter fun n => !covers q n.1⟩

/-- Visits a path and what lies below it, in ascending order, on the given fuel; `skip` tells by its
last segment which entry is not followed. The flag tells whether the rest of the directory around it
is passed over too. -/
def walkFrom (d : Disk) (skip : Text → Bool) : (fuel : Nat) → (p : Text) → (isDir : Bool) →
    List Visit × Bool
  | 0, _, _ => ([], false)
  | fuel + 1, p, isDir =>
    let visit : Visit := ⟨p, isDir⟩
    if skip (Path.base p) then ([visit], !isDir)
    else if isDir then
      let (visits, _) := (d.children p).foldl (fun (acc : List Visit × Bool) e =>
        if acc.2 then acc
        else
          let (visits, stop) := walkFrom d skip fuel (Path.join [p, e.name]) e.isDir
          (acc.1 ++ visits, stop)) ([], false)
      (visit :: visits, false)
    else ([visit], false)

/-- What a walk from a path visits. -/
def walk (d : Disk) (skip : Text → Bool) (p : Text) : Except FileError (List Visit) :=
  match d.find (Path.clean p) with
  | .error cause => .error (.on "lstat" p cause)
  | .ok node => .ok (d.walkFrom skip (d.nodes.length + 1) (Path.clean p) node.isNone).1

/-- Puts a file at a path and the directories above it, whatever was there. -/
def place (d : Disk) (p content : Text) : Disk :=
  ((ancestors p).foldl (fun d a => d.put a none) d).put p (some content)

end Disk

end MiniProgram
