import MiniProgram.Resolver
import MiniProgram.Stage

/-!
The stage that follows imports.

Starting from the modules of the bundle, every module is scanned for the modules it refers to; each
of them is loaded, put into the bundle and scanned in its turn. A relative import that leads nowhere
ends the build, a package that is not found stays external with a warning.

Nothing bounds the number of modules found in this way: the walk goes on as long as its queue holds
an identifier, and has a value only if it comes to an end. It may be called off, though: before each
visit it looks whether it was.
-/

namespace MiniProgram

namespace Graph

/-- Where the walk stands: the bundle, and the identifiers found and not yet visited. -/
structure Walk where
  bundle : Bundle
  queue : List Text
  seen : List Text
deriving DecidableEq, Repr

/-- The walk before its first step. -/
def Walk.start (b : Bundle) : Walk := ⟨b, b.ids, b.ids⟩

/-- Follows one specifier of a module: the import it makes, and the walk with the module it leads
to. -/
def follow (r : Resolver) (kindOf : Text → EntryKind) (id : Text) (state : List Import × Walk)
    (spec : Text) : Outcome (List Import × Walk) :=
  let (imports, w) := state
  match r.resolve id spec with
  | none =>
    if Script.isRelative spec then
      .fail (.plain (id ++ ": could not resolve " ++ Text.quote spec))
    else
      ⟨[.warning Diagnostic.unresolvedImport id
          (Text.quote spec ++ " could not be resolved, treating it as external")],
        .ok (imports ++ [⟨spec, []⟩], w)⟩
  | some found =>
    let imports := imports ++ [⟨spec, found⟩]
    if w.seen.contains found then .ok (imports, w)
    else
      match r.fs.read (r.absolute found) with
      | .error e => .fail (e.failure.within ("failed to read " ++ found))
      | .ok content =>
        let dep := { Module.ofSource found content with entry := kindOf found }
        .ok (imports, ⟨w.bundle.put dep, w.queue ++ [found], found :: w.seen⟩)

/-- Visits the module with an identifier. -/
def visit (r : Resolver) (kindOf : Text → EntryKind) (w : Walk) (id : Text) : Outcome Walk :=
  let m := (w.bundle.get? id).getD Module.blank
  if m.kind ≠ .script then .ok w
  else do
    let (imports, w) ← (Script.scanImports m.content).foldlM (follow r kindOf m.id) ([], w)
    return { w with bundle := w.bundle.put { m with imports := imports } }

/-- Visits the queue to its end, if it has one. -/
def walk (r : Resolver) (kindOf : Text → EntryKind) (w : Walk) : Option (Outcome Bundle) :=
  match w.queue with
  | [] => some (.ok w.bundle)
  | id :: queue =>
    let visited := visit r kindOf { w with queue := queue } id
    match visited.result with
    | .error f => some ⟨visited.diagnostics, .error f⟩
    | .ok w => do
      let rest ← (by exact walk r kindOf : Walk → Option (Outcome Bundle)) w
      return { rest with diagnostics := visited.diagnostics ++ rest.diagnostics }
partial_fixpoint

/-- The bundle with every module that its modules lead to; a walk without an end counts as a
failure. -/
def complete (r : Resolver) (kindOf : Text → EntryKind) (b : Bundle) : Outcome Bundle :=
  (walk r kindOf (Walk.start b)).getD (.fail (.plain "the import graph has no end"))

/-- Visits the queue to its end, unless a number of modules was visited before: then the walk is
called off. -/
def walkWithin (r : Resolver) (kindOf : Text → EntryKind) : Nat → Walk → Outcome Bundle
  | 0, w => if w.queue = [] then .ok w.bundle else .fail .canceled
  | visits + 1, w =>
    match w.queue with
    | [] => .ok w.bundle
    | id :: queue => do
      walkWithin r kindOf visits (← visit r kindOf { w with queue := queue } id)

/-- The bundle with every module that its modules lead to, by a walk that is called off after a
number of visits or not at all. -/
def completeWithin (visits : Option Nat) (r : Resolver) (kindOf : Text → EntryKind) (b : Bundle) :
    Outcome Bundle :=
  match visits with
  | none => complete r kindOf b
  | some visits => walkWithin r kindOf visits (Walk.start b)

end Graph

namespace Stage

/-- Follows the imports of the bundle. -/
def resolve : StageMaker := fun d => do
  let project ← d.needProject "resolve"
  d.needFiles "resolve"
  let kindOf := fun path => (d.catalog.map (·.kind path)).getD .none
  return { idle "resolve" .resolve with
    finish := some fun fs b =>
      Graph.completeWithin d.visits ⟨fs, project.root, project.dedupe⟩ kindOf b }

end Stage

end MiniProgram
