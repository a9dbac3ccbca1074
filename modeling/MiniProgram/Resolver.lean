import MiniProgram.FileSystem
import MiniProgram.Json.Lenient
import MiniProgram.Script.Reference

/-!
Resolving import specifiers to modules.

A relative specifier names a file below the project root, with or without its extension, or a
directory with an index. Any other specifier names a package, which is looked for in the
`node_modules` directories from the importing module outwards; a deduplicated package only in that
of the root. The entry of a package is what its `package.json` names, else its index.
-/

namespace MiniProgram

/-- What imports are resolved in: the files, the project root, and the packages that are only taken
from the root. -/
structure Resolver where
  fs : FileSystem
  root : Text
  dedupe : List Text
deriving DecidableEq, Repr

namespace Resolver

/-! ### Files -/

/-- The extensions tried for a specifier without one, in order. -/
def probeExts : List Text := [".tsx", ".ts", ".jsx", ".js", ".less", ".css", ".json"]

/-- The path of a module. -/
def absolute (r : Resolver) (id : Text) : Text := Path.join [r.root, id]

/-- Whether a module is a file. -/
def isFile (r : Resolver) (id : Text) : Bool :=
  r.fs.contains (r.absolute id) && !(r.fs.list (r.absolute id)).isOk

/-- Whether a module path is a directory. -/
def isDir (r : Resolver) (id : Text) : Bool := (r.fs.list (r.absolute id)).isOk

/-- The modules a path may stand for, in the order in which they are tried. -/
def candidates (base : Text) : List Text :=
  (if Path.ext base = [] then [] else [base])
    ++ probeExts.map (fun ext => base ++ ext)
    ++ probeExts.map (fun ext => base ++ "/index" ++ ext)

/-- The module a path stands for. -/
def probe (r : Resolver) (base : Text) : Option Text := (candidates base).find? r.isFile

/-! ### Packages -/

/-- A package specifier as the name of the package, scope included, and the path inside it. -/
def splitPackage (spec : Text) : Text × Text :=
  let (first, rest) := ((Text.cut? "/" spec).map fun (a, b) => (a, some b)).getD (spec, none)
  match rest with
  | none => (first, [])
  | some rest =>
    if Text.startsWith spec "@" then
      let (second, inside) := (Text.cut? "/" rest).getD (rest, [])
      (first ++ "/" ++ second, inside)
    else (first, rest)

/-- The directory of a path and those above it, on the given fuel. -/
def dirsFrom : (fuel : Nat) → (dir : Text) → List Text
  | 0, _ => []
  | fuel + 1, dir =>
    if dir = ("." : Text) || dir = ("/" : Text) || dir = [] then [dir]
    else dir :: dirsFrom fuel (Path.dir dir)

/-- The directories in which a package is looked for, the nearest first. -/
def packageDirs (dedupe : List Text) (source pkg : Text) : List Text :=
  if dedupe.contains pkg then [Path.join ["node_modules", pkg]]
  else
    ((dirsFrom (source.length + 2) (Path.dir source)).filter fun d =>
      Path.base d ≠ ("node_modules" : Text)).map fun d =>
        Path.normalize (Path.join [d, "node_modules", pkg])

/-- The fields of a package description that name its entry, in order. -/
def entryFields : List Text := ["module", "main"]

/-- The entries a package description names. -/
def namedEntries (description : Text) : List Text :=
  entryFields.filterMap fun field =>
    match Json.lookup? description field with
    | some (.string path) => if path = [] then none else some path
    | _ => none

/-- The entries that the description of the package in a directory names, if it has one. -/
def describedEntries (r : Resolver) (dir : Text) : List Text :=
  match r.fs.read (r.absolute (dir ++ "/package.json")) with
  | .ok description => namedEntries description
  | .error _ => []

/-- The entry of the package in a directory. -/
def packageEntry (r : Resolver) (dir : Text) : Option Text :=
  ((r.describedEntries dir).findSome? fun path =>
    r.probe (Path.normalize (Path.join [dir, path]))).or (r.probe (dir ++ "/index"))

/-- The module a package directory offers for a path inside the package. -/
def inPackage (r : Resolver) (inside dir : Text) : Option Text :=
  if !r.isDir dir then none
  else if inside = [] then r.packageEntry dir
  else r.probe (dir ++ "/" ++ inside)

/-- The module that a specifier seen in the module `source` stands for. -/
def resolve (r : Resolver) (source spec : Text) : Option Text :=
  if Script.isRelative spec then
    let base := Path.normalize (Path.join [Path.dir source, spec])
    if base = [] || Text.startsWith base ".." then none else r.probe base
  else if spec = [] || Text.startsWith spec "/" then none
  else
    let (pkg, inside) := splitPackage spec
    (packageDirs r.dedupe source pkg).findSome? (r.inPackage inside)

end Resolver

end MiniProgram
