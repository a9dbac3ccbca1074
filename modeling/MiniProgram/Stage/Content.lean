import MiniProgram.Fingerprint
import MiniProgram.Script.DefaultExport
import MiniProgram.Script.Interop
import MiniProgram.SourceMap
import MiniProgram.Stage
import MiniProgram.Stylesheet.Classes
import MiniProgram.Stylesheet.Units

/-!
The stages that change the content of modules, each on its own: CommonJS packages become ES modules,
scripts are transpiled, entries are wrapped for the runtime, stylesheets are converted.
-/

namespace MiniProgram

namespace Content

/-- The extensions of scripts. -/
def scriptExts : List Text := [".js", ".jsx", ".ts", ".tsx"]

/-- The extensions of stylesheets. -/
def styleExts : List Text := [".css", ".less"]

/-! ### CommonJS packages -/

/-- The module as an ES module, if it is a CommonJS one. -/
def interop (p : Project) (m : Module) : Outcome Module :=
  if !Script.isCommonJS m.content then .ok m
  else
    match Script.wrapCommonJS m.content (p.namedExports m.id) with
    | .error e => .fail (.plain (m.id ++ ": " ++ e.message))
    | .ok code =>
      .ok { m with
        content := code
        sourceMap := if m.sourceMap = [] then SourceMap.identity m.id m.content else m.sourceMap }

/-! ### Scripts -/

/-- The imports that a script still has. -/
def keepImports (imports : List Import) (code : Text) : List Import :=
  let present := Script.scanImports code
  imports.filter fun i => present.contains i.specifier

/-- The module with the host components it renders, if it imports any. -/
def readHost (policy : HostPolicy) (hostModule : Text) (m : Module) : Outcome Module := do
  let masked := Script.maskComments m.content
  let locals := Script.hostImports hostModule masked
  if locals = [] then return m
  let host ← policy.apply m.id (Script.jsxUsages locals masked)
  return { m with host := host }

/-- The module transpiled. -/
def transpile (transformer : Transformer) (m : Module) : Outcome Module := do
  let result ← Outcome.of (transformer ⟨m.id, m.content, Dialect.ofPath m.id⟩)
  if Script.topLevelThis result.code then
    Outcome.warn (.warning Diagnostic.thisIsUndefined m.id
      "the 'this' keyword is equivalent to 'undefined' at the top level of an ES module")
  return { m with
    content := result.code
    sourceMap := if result.map = [] then SourceMap.identity m.id m.content else result.map
    imports := keepImports m.imports result.code }

/-! ### Entries -/

/-- The host function and the factory an entry is passed to. -/
def factories : EntryKind → Text × Text
  | .app => ("App", "createAppConfig")
  | _ => ("Page", "createPageConfig")

/-- The entry with its default export passed to the runtime. -/
def wrapEntry (runtimeModule : Text) (m : Module) : Outcome Module :=
  let (host, factory) := factories m.entry
  match Script.bindDefaultExport m.content with
  | none =>
    ⟨[.warning Diagnostic.missingDefaultExport m.id
        ("entry has no default export to pass to " ++ factory)], .ok m⟩
  | some code =>
    let lineEnd : Text := if Text.endsWith code "\n" then [] else "\n"
    .ok { m with
      content := "import \x7b " ++ factory ++ " \x7d from " ++ Text.quote runtimeModule ++ ";\n"
        ++ code ++ lineEnd
        ++ "export default " ++ host ++ "(" ++ factory ++ "(" ++ Script.entryBinding ++ "));\n"
      imports := m.imports ++ [⟨runtimeModule, []⟩] }

/-! ### Stylesheets -/

/-- The suffix that scopes the classes of a stylesheet module. -/
def scopeSuffix (id : Text) : Text := "_" ++ Fingerprint.short id 5

/-- The stylesheet in responsive units; a stylesheet module becomes the script that maps its
classes, with the stylesheet as an asset. -/
def convertStyle (p : Project) (m : Module) : Module :=
  let css := Stylesheet.pxToRpx p.pxMultiple m.content
  if m.kind ≠ .styleModule then { m with content := css }
  else
    let rename := fun name => if p.cssModules then name ++ scopeSuffix m.id else name
    { m with
      assets := m.assets ++ [⟨Text.trimEnd m.path ".less" ++ ".css", Stylesheet.scope rename css⟩]
      sourceMap := SourceMap.identity m.id m.content
      content := Stylesheet.classModule (Stylesheet.classMap rename css) }

end Content

namespace Stage

/-- Turns CommonJS packages into ES modules. -/
def commonjs : StageMaker := fun d => do
  let project ← d.needProject "commonjs"
  return { idle "commonjs" .interop with
    consumes := [".js", ".cjs"]
    filter := some (.allOf [.nodeModules, .exts [".js", ".cjs"]])
    transform := some (Content.interop project) }

/-- Reads the host components of scripts and transpiles them, packages apart. -/
def script : StageMaker := fun d => do
  let project ← d.needProject "script"
  let registry ← d.needRegistry "script"
  let transformer ← d.needTransformer "script"
  let platform ← (registry.platform project.platform).mapError (·.failure)
  return { idle "script" .component with
    consumes := Content.scriptExts
    filter := some (.allOf [.exts Content.scriptExts, .except .nodeModules])
    transform := some fun m => do
      let m ← Content.readHost ⟨platform, project.unknownProps⟩ project.hostModule m
      Content.transpile transformer m }

/-- Passes the default export of every entry to the runtime. -/
def page : StageMaker := fun d => do
  let project ← d.needProject "page"
  return { idle "page" .component with
    consumes := Content.scriptExts
    filter := some (.allOf [.entries, .exts Content.scriptExts])
    transform := some (Content.wrapEntry project.runtimeModule) }

/-- Converts stylesheets. -/
def style : StageMaker := fun d => do
  let project ← d.needProject "style"
  return { idle "style" .style with
    consumes := Content.styleExts
    filter := some (.exts Content.styleExts)
    transform := some fun m => .ok (Content.convertStyle project m) }

end Stage

end MiniProgram
