import MiniProgram.Text.Basic

/-!
Slash-separated paths.

A path is a text; its segments are the pieces between slashes. `clean` resolves empty segments, `.`
and `..` as far as the text alone allows, and `normalize` turns any spelling of a project-relative
path into its normal form: the empty text for the project root itself, else non-empty segments
joined by single slashes, none of them `.`, with `..` only in front and no leading slash. Module
identifiers are paths in normal form.

`relativeImport` is the specifier by which the module at one path refers to the module at another.
-/

namespace MiniProgram

namespace Path

/-! ### Cleaning -/

/-- The segments kept so far, last first, after one more segment: an empty segment or `.` is
dropped, `..` takes back the segment before it, or stays if there is none and the path is not
rooted. -/
def pushSegment (rooted : Bool) (kept : List Text) (segment : Text) : List Text :=
  if segment = [] || segment = ("." : Text) then kept
  else if segment = (".." : Text) then
    match kept with
    | [] => if rooted then [] else [segment]
    | last :: before => if last = (".." : Text) then segment :: kept else before
  else segment :: kept

/-- The segments that remain after resolving empty segments, `.` and `..`. -/
def cleanSegments (rooted : Bool) (segments : List Text) : List Text :=
  (segments.foldl (pushSegment rooted) []).reverse

/-- Whether a path starts at the root of the file system. -/
def isAbsolute (p : Text) : Bool := p.head? == some Byte.slash

/-- The shortest spelling of a path; `.` for the empty one. -/
def clean (p : Text) : Text :=
  let segments := cleanSegments (isAbsolute p) (Text.split Byte.slash p)
  if isAbsolute p then Byte.slash :: Text.join "/" segments
  else if segments = [] then "." else Text.join "/" segments

/-- The elements joined by slashes and cleaned; the empty path if all of them are empty. -/
def join (elements : List Text) : Text :=
  match elements.dropWhile (· = []) with
  | [] => []
  | rest => clean (Text.join "/" rest)

/-! ### Parts of a path -/

/-- The directory of a path, cleaned: all that stands before the last slash. -/
def dir (p : Text) : Text :=
  clean (p.reverse.dropWhile (· ≠ Byte.slash)).reverse

/-- The last segment of a path, trailing slashes aside; `.` for the empty path and `/` for one of
slashes only. -/
def base (p : Text) : Text :=
  if p = [] then "."
  else
    let name := ((p.reverse.dropWhile (· = Byte.slash)).takeWhile (· ≠ Byte.slash)).reverse
    if name = [] then "/" else name

/-- The extension of a path: from the last dot of its last segment on, empty if there is none. -/
def ext (p : Text) : Text :=
  let name := p.reverse.takeWhile (· ≠ Byte.slash)
  if Byte.dot ∈ name then (name.takeWhile (· ≠ Byte.dot)).reverse.cons Byte.dot else []

/-! ### Project-relative paths -/

/-- The normal form of a project-relative path. -/
def normalize (p : Text) : Text :=
  if p = [] then []
  else
    let q := Text.trimStart (clean (Text.trimStart p "./")) "/"
    if q = ("." : Text) then [] else q

/-- The segments of a normal path; none for the root itself. -/
def segments (p : Text) : List Text := if p = [] then [] else Text.split Byte.slash p

/-- Whether a normal path lies in a `node_modules` directory. -/
def inNodeModules (p : Text) : Bool := (segments p).contains ("node_modules" : Text)

/-- The route of an output path: its normal form without the extension. -/
def route (p : Text) : Text :=
  let q := normalize p
  Text.trimEnd q (ext q)

/-- The path of the template that belongs to a script path. -/
def templatePath (p templateExt : Text) : Text := route p ++ templateExt

/-- One parent reference for each directory. -/
def climb (dirs : List Text) : List Text := dirs.map fun _ => ".."

/-- The way from a directory to a target: a parent reference for each directory that is left, then
the rest of the target. The last segment of the target is never taken for a common directory. -/
def relativeSegments : (dirs target : List Text) → List Text
  | d :: dirs, s :: rest =>
    if d = s && !rest.isEmpty then relativeSegments dirs rest
    else climb (d :: dirs) ++ s :: rest
  | dirs, target => climb dirs ++ target

/-- The segments of a directory; none for the project root. -/
def dirSegments (d : Text) : List Text :=
  if d = ("." : Text) || d = [] then [] else Text.split Byte.slash d

/-- The specifier by which the module at `source` imports the module at `target`. -/
def relativeImport (source target : Text) : Text :=
  let parts := relativeSegments (dirSegments (dir (normalize source)))
    (Text.split Byte.slash (normalize target))
  let rel := Text.join "/" parts
  if Text.startsWith rel "." then rel else "./" ++ rel

/-! ### Output paths -/

/-- Why a path may not be written below the output directory. -/
inductive OutputFlaw where
  | empty
  | absolute
  | parentReference
  | wildcard
deriving DecidableEq, Repr

/-- The wording of an output flaw. -/
def OutputFlaw.message : OutputFlaw → Text
  | .empty => "path cannot be empty"
  | .absolute => "path must be relative"
  | .parentReference => "path cannot contain parent directory references"
  | .wildcard => "path cannot contain wildcards"

/-- The first reason for which a path may not be written, if any. -/
def outputFlaw? (p : Text) : Option OutputFlaw :=
  if p = [] then some .empty
  else if isAbsolute p then some .absolute
  else if (Text.split Byte.slash p).contains (".." : Text) then some .parentReference
  else if Text.includesAny p "*?" then some .wildcard
  else none

/-! ### Relative position -/

/-- The segments that lead from one cleaned path to another: parent references for what remains of
the first after the common part, then the rest of the second. `none` if a parent reference in the
first cannot be undone. -/
def segmentsBetween? : (source target : List Text) → Option (List Text)
  | s :: source, t :: target =>
    if s = t then segmentsBetween? source target
    else if s = (".." : Text) then none
    else some (climb (s :: source) ++ t :: target)
  | source, target => some (climb source ++ target)

/-- The path that leads from the directory `root` to `p`, both taken as spelled; `none` if only one
of them is absolute or `root` climbs where `p` does not. -/
def relativeTo? (root p : Text) : Option Text :=
  let r := clean root
  let q := clean p
  if r = q then some "."
  else if isAbsolute r ≠ isAbsolute q then none
  else
    let parts (x : Text) : List Text :=
      if x = ("/" : Text) then [] else Text.split Byte.slash (Text.trimStart x "/")
    (segmentsBetween? (if r = ("." : Text) then [] else parts r) (parts q)).map (Text.join "/")

/-- The absolute form of a path as seen from a working directory. -/
def absolute (cwd p : Text) : Text := if isAbsolute p then clean p else join [cwd, p]

end Path

end MiniProgram
