import MiniProgram.HostTemplate
import MiniProgram.Manifest
import MiniProgram.Stage

/-!
The stage that emits the markup: a base template with one definition for each host component the
bundle renders, a template for each page, and the manifest.
-/

namespace MiniProgram

namespace Emit

/-- The names of the host components some modules render, in ascending order. -/
def usedComponents (ms : List Module) : List Text :=
  Text.sortUnique (ms.flatMap fun m => m.host.map (·.component))

/-- The props that any module passes through to a component, in ascending order. -/
def passedThrough (ms : List Module) (component : Text) : List Text :=
  Text.sortUnique (ms.flatMap fun m =>
    (m.host.filter (·.component = component)).flatMap (·.passthrough))

/-- The template of a component: its native attributes, then what is passed through to it beside
them. -/
def hostTemplate (ms : List Module) (c : Component) : HostTemplate :=
  ⟨c.tag, c.props ++ (passedThrough ms c.name).filter fun p => !c.hasNative p⟩

/-- The templates of the components a bundle renders and the platform has. -/
def hostTemplates (p : Platform) (ms : List Module) : List HostTemplate :=
  (usedComponents ms).filterMap fun name => (p.component? name).map (hostTemplate ms)

/-- The path of the base template. -/
def basePath (p : Platform) : Text := "base" ++ p.templateExt

/-- Emits the template of a page and notes its route. -/
def emitPage (p : Platform) (state : Bundle × List Text) (page : Entry) :
    Except Failure (Bundle × List Text) :=
  let (b, routes) := state
  match b.get? page.path with
  | none =>
    .error (.of .missingTemplateInput
      ("template input missing: page " ++ page.path ++ " has no script module"))
  | some m =>
    .ok (b.emit ⟨Path.templatePath m.path p.templateExt, HostTemplate.renderPage (basePath p)⟩,
      routes ++ [Path.route m.path])

/-- Emits the markup and the manifest. -/
def emitAll (p : Platform) (pages : List Entry) (b : Bundle) : Except Failure Bundle := do
  let base := HostTemplate.renderBase p.directivePrefix (hostTemplates p b.modules)
  let b := b.emit ⟨basePath p, base⟩
  let (b, routes) ← pages.foldlM (emitPage p) (b, [])
  return b.emit ⟨"app.json", (Manifest.mk routes).render⟩

end Emit

namespace Stage

/-- Emits the markup and the manifest. -/
def template : StageMaker := fun d => do
  let project ← d.needProject "template"
  let catalog ← d.needCatalog "template"
  let registry ← d.needRegistry "template"
  let platform ← (registry.platform project.platform).mapError (·.failure)
  return { idle "template" .emit with
    finish := some fun _ b => Outcome.of (Emit.emitAll platform catalog.pages b) }

end Stage

end MiniProgram
