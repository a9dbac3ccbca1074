import MiniProgram.Path
import MiniProgram.RenameRules

/-!
Modules: the units a build works on.

A module is known by its `id`, the normal project-relative path of its source, which never changes;
its `path` is where it will be written and changes when it is renamed. Beside its content it carries
what the stages find out about it: the imports, the host components it renders, and the assets
extracted from it.
-/

namespace MiniProgram

/-- What a module holds, judged by the extension of its source. -/
inductive ModuleKind where
  | script
  | style
  | styleModule
  | json
  | other
deriving DecidableEq, Repr

namespace ModuleKind

/-- The name of a kind. -/
def name : ModuleKind → Text
  | script => "script"
  | style => "style"
  | styleModule => "style-module"
  | json => "json"
  | other => "other"

/-- The kinds in their numbering. -/
def all : List ModuleKind := [script, style, styleModule, json, other]

/-- The kind of a file by its extension. -/
def ofPath (p : Text) : ModuleKind :=
  let e := Path.ext (Path.normalize p)
  if e ∈ ([".js", ".jsx", ".ts", ".tsx", ".mjs", ".cjs"] : List Text) then script
  else if e = (".css" : Text) then style
  else if e = (".less" : Text) then styleModule
  else if e = (".json" : Text) then json
  else other

end ModuleKind

/-- The dialect a script is transpiled from. -/
inductive Dialect where
  | js
  | jsx
  | ts
  | tsx
deriving DecidableEq, Repr

namespace Dialect

/-- The name of a dialect. -/
def name : Dialect → Text
  | js => "js"
  | jsx => "jsx"
  | ts => "ts"
  | tsx => "tsx"

/-- The dialect of a script by its extension. -/
def ofPath (p : Text) : Dialect :=
  let e := Path.ext (Path.normalize p)
  if e = (".ts" : Text) then ts
  else if e = (".tsx" : Text) then tsx
  else if e = (".jsx" : Text) then jsx
  else js

end Dialect

/-- Whether a module is an entry of the program, and which. -/
inductive EntryKind where
  | none
  | app
  | page
deriving DecidableEq, Repr

/-- The name of an entry kind. -/
def EntryKind.name : EntryKind → Text
  | none => "none"
  | app => "app"
  | page => "page"

/-- One import of a module: the specifier in its source and the module it was resolved to, empty
when it is external. -/
structure Import where
  specifier : Text
  resolved : Text
deriving DecidableEq, Repr

/-- A host component a module renders, with the native names of props passed through to it. -/
structure HostUsage where
  component : Text
  passthrough : List Text
deriving DecidableEq, Repr

/-- A file to be written beside the modules. -/
structure Asset where
  path : Text
  content : Text
deriving DecidableEq, Repr

/-- One module of a build. An empty source map means that there is none. -/
structure Module where
  id : Text
  path : Text
  content : Text
  sourceMap : Text
  entry : EntryKind
  kind : ModuleKind
  seed : Bool
  renamed : Bool
  imports : List Import
  host : List HostUsage
  assets : List Asset
deriving DecidableEq, Repr

namespace Module

/-- The module that nothing is known of. -/
def blank : Module := ⟨[], [], [], [], .none, .script, false, false, [], [], []⟩

/-- The module of a source file. -/
def ofSource (id content : Text) : Module :=
  let id := Path.normalize id
  { blank with id := id, path := id, content := content, kind := ModuleKind.ofPath id }

/-- The module under its output path, its assets renamed with it. A module is renamed once. -/
def rename (rules : RenameRules) (m : Module) : Module :=
  if m.renamed then m
  else
    { m with
      path := rules.apply m.path
      assets := m.assets.map fun a => { a with path := rules.apply a.path }
      renamed := true }

end Module

end MiniProgram
