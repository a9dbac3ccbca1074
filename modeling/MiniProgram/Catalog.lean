import MiniProgram.Failure
import MiniProgram.FileSystem
import MiniProgram.Module
import MiniProgram.Text.Quoted

/-!
Catalogs of entries: the app and the pages a program starts from, each path once, in the order in
which they were found.

`discover` looks for them in a tree: the app is `app` with a script extension in the source
directory, the pages are those the project names, or else every `index` script below `pages`, one
for each directory. `seed` is the module that imports all entries, from which imports are followed.
-/

namespace MiniProgram

/-- An entry of a program. -/
structure Entry where
  path : Text
  kind : EntryKind
deriving DecidableEq, Repr

/-- The entries of a program. -/
structure Catalog where
  entries : List Entry
deriving DecidableEq, Repr

namespace Catalog

/-! ### Making a catalog -/

/-- Why there is no catalog. -/
inductive Flaw where
  | none
  | emptyPath
  | noPages (dir : Text)
  | missingPage (page : Text)
  | unreadablePage (page : Text) (error : FileError)
  | badPattern
deriving DecidableEq, Repr

namespace Flaw

/-- The wording of a flaw. -/
def message : Flaw → Text
  | none => "no entries found"
  | emptyPath => "no entries found: empty entry path"
  | noPages dir => "no entries found: no pages under " ++ dir
  | missingPage page => "no entries found: page " ++ page ++ " does not exist"
  | unreadablePage page error => "failed to stat page " ++ page ++ ": " ++ error.message
  | badPattern => "failed to glob pages: syntax error in pattern"

/-- The fault a flaw belongs to. -/
def fault : Flaw → Fault
  | unreadablePage _ error => error.fault
  | badPattern => .other
  | _ => .noEntries

/-- The flaw as a failure. -/
def failure (f : Flaw) : Failure := .of f.fault f.message

end Flaw

/-- The entries with one more, its path in normal form; an entry whose path is there already is left
out. -/
def add (entries : List Entry) (e : Entry) : Except Flaw (List Entry) :=
  let path := Path.normalize e.path
  if path = [] then .error .emptyPath
  else if entries.any (·.path = path) then .ok entries
  else .ok (entries ++ [⟨path, e.kind⟩])

/-- The catalog of some entries. -/
def ofEntries (list : List Entry) : Except Flaw Catalog :=
  if list = [] then .error .none else (list.foldlM add []).map (⟨·⟩)

/-! ### What a catalog answers -/

/-- The kind of a path; `none` if it is no entry. -/
def kind (c : Catalog) (path : Text) : EntryKind :=
  match c.entries.find? (·.path = Path.normalize path) with
  | some e => e.kind
  | none => .none

/-- The pages, in order. -/
def pages (c : Catalog) : List Entry := c.entries.filter (·.kind = .page)

/-- The number of entries. -/
def size (c : Catalog) : Nat := c.entries.length

/-- The identifier of the seed. -/
def seedId : Text := "__mini_entries__.js"

/-- The statement that imports a specifier. -/
def importLine (spec : Text) : Text := "import " ++ Text.quote spec ++ ";\n"

/-- The module that imports every entry, then some further packages. -/
def seed (c : Catalog) (extra : List Text) : Module :=
  let own : List Text := c.entries.map fun e => "./" ++ e.path
  let specs := own ++ extra
  { Module.ofSource seedId (specs.flatMap importLine) with seed := true }

/-! ### Discovery -/

/-- The extensions of entries, the preferred one first. -/
def scriptExts : List Text := [".tsx", ".ts", ".jsx", ".js"]

/-- How far an extension is from being preferred. -/
def extRank (path : Text) : Nat := scriptExts.idxOf (Path.ext path)

/-- The app of a source directory. -/
def findApp (tree : FileSystem.View) (sourceDir : Text) : Option Text :=
  (scriptExts.map fun ext => Path.join [sourceDir, "app" ++ ext]).find? fun p => (tree.stat p).isOk

/-- The page a project names, if it exists. -/
def checkPage (tree : FileSystem.View) (page : Text) : Except Flaw Text :=
  let page := Path.normalize page
  match tree.stat page with
  | .ok _ => .ok page
  | .error e =>
    if e.fault = .notExist then .error (.missingPage page) else .error (.unreadablePage page e)

/-- The kept paths after one more, of which there is at most one for each directory: the new one
takes the place of one whose extension is less preferred. -/
def keep (kept : List Text) (p : Text) : List Text :=
  match kept.find? fun q => Path.dir q = Path.dir p with
  | some q => if extRank q ≤ extRank p then kept else kept.map fun r => if r = q then p else r
  | none => kept ++ [p]

/-- Keeps for each directory the path with the preferred extension. -/
def preferred (paths : List Text) : List Text := paths.foldl keep []

/-- The pattern of the `index` scripts below the pages of a source directory. -/
def pagePattern (sourceDir : Text) : Text :=
  Path.join [sourceDir, "pages", "**", "index.\x7btsx,ts,jsx,js\x7d"]

/-- The pages among the paths that were found, in ascending order; those of packages are none. -/
def pagesAmong (found : List Text) : List Text :=
  Text.sort (preferred (found.filter fun p => !Text.includes p "/node_modules/"))

/-- The pages found below a source directory, in ascending order. -/
def findPages (tree : FileSystem.View) (sourceDir : Text) : Except Flaw (List Text) :=
  let pattern := pagePattern sourceDir
  if !Glob.isValid pattern then .error .badPattern
  else .ok (pagesAmong (tree.glob pattern))

/-- The catalog of a tree: the pages named, or those found if none is named. -/
def discover (tree : FileSystem.View) (sourceDir : Text) (named : List Text) :
    Except Flaw Catalog := do
  let app := ((findApp tree sourceDir).map fun p => Entry.mk p .app).toList
  let pages ← if named = [] then findPages tree sourceDir else named.mapM (checkPage tree)
  if pages = [] then throw (.noPages (Path.join [sourceDir, "pages"]))
  ofEntries (app ++ pages.map fun p => ⟨p, .page⟩)

end Catalog

end MiniProgram
