import MiniProgram.Failure
import MiniProgram.Platform.Component
import MiniProgram.Yaml.Decode

/-!
Platforms and their tables.

A platform has its components and the few things its templates need. A table is the YAML document a
platform is read from; its components and their props keep the order in which they are declared.
-/

namespace MiniProgram

/-- A target platform: its name, the marker that binds event handlers, the extension of templates,
the prefix of template directives, and its components. -/
structure Platform where
  name : Text
  bindingMarker : Text
  templateExt : Text
  directivePrefix : Text
  components : List Component
deriving DecidableEq, Repr

namespace Platform

/-- The component with a portable name. -/
def component? (p : Platform) (name : Text) : Option Component :=
  p.components.find? (·.name = name)

/-- The components in ascending order of their names. -/
def sortedComponents (p : Platform) : List Component :=
  p.components.mergeSort fun a b => Text.le a.name b.name

/-! ### Flaws of a table -/

/-- Why a table cannot be read. -/
inductive TableFlaw where
  | document (flaw : Yaml.Flaw)
  | noPlatform
  | noMarker (platform : Text)
  | componentsShape (platform : Text)
  | componentType (component : Text) (line : Nat) (flaw : Yaml.Flaw)
  | propsShape (component : Text)
  | nativeShape (component prop : Text) (line : Nat)
  | repeatedComponent (platform component : Text)
  | component (platform : Text) (flaw : Component.Flaw)
  | repeatedPlatform (platform : Text)
  | inFile (file : Text) (flaw : TableFlaw)
deriving DecidableEq, Repr

/-- What every complaint about a table says. -/
def TableFlaw.lead : Text := "malformed alias table: "

/-- A flaw of a component, outside every table, as a failure. -/
def componentFailure (f : Component.Flaw) : Failure :=
  .of .malformedTable (TableFlaw.lead ++ f.message)

/-- The wording of a flaw. -/
def TableFlaw.message : TableFlaw → Text
  | document flaw => lead ++ flaw.message
  | noPlatform => lead ++ "missing platform"
  | noMarker p => lead ++ p ++ ": missing bindingMarker"
  | componentsShape p => lead ++ p ++ ": components must be a mapping"
  | componentType c line flaw =>
    lead ++ c ++ ": line " ++ Text.ofNat line ++ ": " ++ flaw.message
  | propsShape c => lead ++ c ++ ": props must be a mapping"
  | nativeShape c p line =>
    lead ++ c ++ "." ++ p ++ ": line " ++ Text.ofNat line ++ ": native name must be a string"
  | repeatedComponent p c => lead ++ p ++ ": component " ++ c ++ " defined twice"
  | component p flaw => p ++ ": " ++ lead ++ flaw.message
  | repeatedPlatform p => lead ++ "platform " ++ Text.quote p ++ " defined twice"
  | inFile file flaw => file ++ ": " ++ flaw.message

/-- The flaw as a failure. -/
def TableFlaw.failure (f : TableFlaw) : Failure := .of .malformedTable f.message

/-! ### Reading a table -/

/-- The settings of a table, with its components still as a node. -/
structure TableFile where
  platform : Text
  bindingMarker : Text
  templateExt : Text
  directivePrefix : Text
  root : Option Yaml.Node
  components : Option Yaml.Node

/-- How a table is read. -/
def TableFile.shape (root : Yaml.Node) (_ : Nat) : Yaml.Shape TableFile where
  target := "hostcomponent.tableFile"
  fields := some ["platform", "bindingMarker", "templateExt", "directivePrefix", "components"]
  entry f key v := do
    let text (old : Text) : Yaml.Decoder Text := return (← Yaml.text root v).getD old
    if key = ("platform" : Text) then return { f with platform := ← text f.platform }
    else if key = ("bindingMarker" : Text) then
      return { f with bindingMarker := ← text f.bindingMarker }
    else if key = ("templateExt" : Text) then return { f with templateExt := ← text f.templateExt }
    else if key = ("directivePrefix" : Text) then
      return { f with directivePrefix := ← text f.directivePrefix }
    else if key = ("components" : Text) then
      return { f with root := some root, components := some v }
    else return f

/-- How one component of a table is read: its tag and its props as a node. -/
def componentShape (root : Yaml.Node) : Yaml.Shape (Text × Option Yaml.Node) where
  target := "hostcomponent.componentNode"
  fields := some ["tag", "props"]
  entry c key v := do
    if key = ("tag" : Text) then return ((← Yaml.text root v).getD c.1, c.2)
    else return (c.1, some v)

/-- The declared props of a component, from the node that lists them. -/
def propSpecs (component : Text) : Option Yaml.Node → Except TableFlaw (List PropSpec)
  | some (.mapping _ entries) => entries.mapM fun (k, v) =>
    match v with
    | .scalar _ _ t => .ok ⟨k.text, if v.isNull then [] else t⟩
    | _ => .error (.nativeShape component k.text v.line)
  | _ => .error (.propsShape component)

/-- The components with the next one of a table. -/
def addComponent (f : TableFile) (root : Yaml.Node) (components : List Component) :
    Yaml.Node × Yaml.Node → Except TableFlaw (List Component)
  | (k, v) => do
    let (tag, props) ←
      (Yaml.mapping (componentShape root) root (root.size + 1) ([], none) v).result.mapError
        (TableFlaw.componentType k.text k.line)
    let specs ← propSpecs k.text props
    if components.any (·.name = k.text) then throw (.repeatedComponent f.platform k.text)
    let c ← (Component.ofSpecs k.text tag f.bindingMarker specs).mapError (.component f.platform)
    return components ++ [c]

/-- The platform a table describes. -/
def parse (t : Text) : Except TableFlaw Platform := do
  let f ← (Yaml.decode TableFile.shape ⟨[], [], [], [], none, none⟩ t).mapError .document
  if f.platform = [] then throw .noPlatform
  if f.bindingMarker = [] then throw (.noMarker f.platform)
  match f.root, f.components with
  | some root, some (.mapping _ entries) =>
    let components ← entries.foldlM (addComponent f root) []
    return {
      name := f.platform
      bindingMarker := f.bindingMarker
      templateExt := if f.templateExt = [] then ".axml" else f.templateExt
      directivePrefix := f.directivePrefix
      components := components }
  | _, _ => throw (.componentsShape f.platform)

end Platform

end MiniProgram
