import MiniProgram.Failure

/-!
Errors of file systems: the operation, the path as the operation saw it, and the cause.
-/

namespace MiniProgram

/-- Why an operation on a path failed. -/
inductive FileCause where
  /-- Nothing is stored under the path in memory. -/
  | notStored
  /-- The path does not exist on disk. -/
  | noEntry
  | notDirectory
  | isDirectory
  | notEmpty
  | invalid
  | unsupported
deriving DecidableEq, Repr

/-- The wording of a cause. -/
def FileCause.message : FileCause → Text
  | notStored => "file does not exist"
  | noEntry => "no such file or directory"
  | notDirectory => "not a directory"
  | isDirectory => "is a directory"
  | notEmpty => "directory not empty"
  | invalid => "invalid argument"
  | unsupported => "not implemented"

/-- The fault a cause belongs to. -/
def FileCause.fault : FileCause → Fault
  | notStored | noEntry => .notExist
  | invalid => .invalidPath
  | _ => .other

/-- An error of a file system. -/
inductive FileError where
  | on (operation path : Text) (cause : FileCause)
  | readOnly
  | busy
deriving DecidableEq, Repr

namespace FileError

/-- The wording of an error. -/
def message : FileError → Text
  | on operation path cause => operation ++ " " ++ path ++ ": " ++ cause.message
  | readOnly => "filesystem is read-only"
  | busy => "device busy"

/-- The fault an error belongs to. -/
def fault : FileError → Fault
  | on _ _ cause => cause.fault
  | readOnly => .readOnly
  | busy => .other

/-- The error as a failure. -/
def failure (e : FileError) : Failure := .of e.fault e.message

end FileError

/-- A name in a directory. -/
structure DirEntry where
  name : Text
  isDir : Bool
deriving DecidableEq, Repr

/-- What a walk over a tree visits. -/
structure Visit where
  path : Text
  isDir : Bool
deriving DecidableEq, Repr

end MiniProgram
