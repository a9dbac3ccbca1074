import MiniProgram.Script.Reference
import MiniProgram.Stage

/-!
The stages that lay the bundle out: modules get their output paths and refer to each other by them,
and what only served to build the graph is taken out again.
-/

namespace MiniProgram

namespace Layout

/-! ### Linking -/

/-- Two modules that would be written to the same path; the seed is never written. -/
def clash? : (placed : List (Text × Text)) → List Module → Option Failure
  | _, [] => none
  | placed, m :: ms =>
    match placed.lookup m.path, m.seed with
    | some other, false =>
      some (.plain (other ++ " and " ++ m.id ++ " are both emitted as " ++ m.path))
    | _, _ => clash? ((m.path, m.id) :: placed) ms

/-- What the seeds of a bundle resolve packages to. -/
def seedPackages (ms : List Module) : List (Text × Text) :=
  (ms.filter (·.seed)).foldl (fun found m =>
    m.imports.foldl (fun found i =>
      if i.resolved ≠ [] && !Script.isRelative i.specifier then (i.specifier, i.resolved) :: found
      else found) found) []

/-- What becomes of an import. -/
inductive Link where
  /-- It stays as it is. -/
  | keep
  /-- It names a plain stylesheet, which the runtime loads by itself. -/
  | drop
  /-- It is written with another specifier. -/
  | point (specifier resolved : Text)
deriving DecidableEq, Repr

/-- What becomes of one import of a module. -/
def link (ms : List Module) (packages : List (Text × Text)) (path : Text) (i : Import) : Link :=
  let resolved := if i.resolved = [] then (packages.lookup i.specifier).getD [] else i.resolved
  match ms.find? (·.id = resolved) with
  | none => .keep
  | some target =>
    if target.kind = .style then .drop
    else .point (Path.relativeImport path target.path) resolved

/-- The import under what becomes of it. -/
def linked (i : Import) : Link → Option Import
  | .keep => some i
  | .drop => none
  | .point spec resolved => some ⟨spec, resolved⟩

/-- How the references of a script are retargeted, given what becomes of its imports: a specifier
that is dropped anywhere is dropped, and of several targets the last one counts. -/
def retargetFor (links : List (Import × Link)) (spec : Text) : Script.Retarget :=
  let own := (links.filter fun (i, _) => i.specifier = spec).map Prod.snd
  if own.contains .drop then .drop
  else
    match own.reverse.findSome? fun l => match l with | .point s _ => some s | _ => none with
    | some s => .replace s
    | none => .replace spec

/-- The module with its references pointing at the output paths of their targets. -/
def relink (ms : List Module) (packages : List (Text × Text)) (m : Module) : Module :=
  let links := m.imports.map fun i => (i, link ms packages m.path i)
  { m with
    content := Script.retargetImports (retargetFor links) m.content
    imports := links.filterMap fun (i, l) => linked i l }

/-- Whether the references of a module are retargeted. -/
def isLinked (m : Module) : Bool :=
  !m.seed && (m.kind = .script || m.kind = .styleModule) && !m.imports.isEmpty

/-- The bundle with every module linked. -/
def linkAll (b : Bundle) : Outcome Bundle :=
  let ms := b.modules
  match clash? [] ms with
  | some f => .fail f
  | none =>
    let packages := seedPackages ms
    .ok ((ms.filter isLinked).foldl (fun b m => b.put (relink ms packages m)) b)

/-! ### Stripping -/

/-- Whether a module only served to build the graph: the seed, or a declaration file. -/
def isScaffold (m : Module) : Bool := m.seed || Text.endsWith m.id ".d.ts"

/-- The bundle without the modules that only served to build the graph; no other may import them. -/
def stripAll (b : Bundle) : Outcome Bundle :=
  let gone := (b.modules.filter isScaffold).map (·.id)
  let rest := gone.foldl Bundle.remove b
  let broken := rest.modules.findSome? fun m =>
    (m.imports.find? fun i => gone.contains i.resolved).map fun i => (m.id, i.resolved)
  match broken with
  | some (id, target) => .fail (.plain (id ++ " imports " ++ target ++ ", which is not emitted"))
  | none => .ok rest

end Layout

namespace Stage

/-- Gives every module its output path and links the modules by them. -/
def rename : StageMaker := fun d => do
  let project ← d.needProject "rename"
  let rules := project.renameRules
  match rules.flaw? with
  | some flaw => throw (.plain flaw.message)
  | none =>
    return { idle "rename" .rename with
      filter := some .all
      transform := some fun m => .ok (m.rename rules)
      finish := some fun _ b => Layout.linkAll b }

/-- Takes out what only served to build the graph. -/
def strip : StageMaker := fun _ =>
  return { idle "strip" .strip with finish := some fun _ b => Layout.stripAll b }

end Stage

end MiniProgram
