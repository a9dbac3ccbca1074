import MiniProgram.Diagnostic
import MiniProgram.Module
import MiniProgram.Project
import MiniProgram.Registry
import MiniProgram.Script.Markup

/-!
The host components a module renders, under the policy for props the platform does not know: they
are dropped or passed through with a warning, or end the build.
-/

namespace MiniProgram

/-- A result with the diagnostics met on the way to it, which are reported also if it fails. -/
structure Outcome (α : Type) where
  diagnostics : List Diagnostic
  result : Except Failure α

namespace Outcome

variable {α β : Type}

/-- A result without diagnostics. -/
def of (r : Except Failure α) : Outcome α := ⟨[], r⟩

/-- A value without diagnostics. -/
def ok (a : α) : Outcome α := of (.ok a)

/-- A failure without diagnostics. -/
def fail (f : Failure) : Outcome α := of (.error f)

/-- One diagnostic and nothing else. -/
def warn (d : Diagnostic) : Outcome Unit := ⟨[d], .ok ()⟩

/-- Goes on with a result, unless it failed. -/
def bind (x : Outcome α) (f : α → Outcome β) : Outcome β :=
  match x.result with
  | .ok a =>
    let y := f a
    ⟨x.diagnostics ++ y.diagnostics, y.result⟩
  | .error e => ⟨x.diagnostics, .error e⟩

instance : Monad Outcome where
  pure := ok
  bind := bind

end Outcome

/-- The policy a module's markup is read under. -/
structure HostPolicy where
  platform : Platform
  unknown : UnknownProps
deriving DecidableEq, Repr

namespace HostPolicy

/-- The props the component runtime keeps for itself. -/
def reserved : List Text := ["key", "ref", "children"]

/-- The props passed through so far, by component. -/
abbrev Passed := List (Text × List Text)

/-- Notes that a component is rendered. -/
def note (component : Text) (ps : Passed) : Passed :=
  if ps.any (·.1 = component) then ps else ps ++ [(component, [])]

/-- Notes that a prop is passed through to a component. -/
def pass (component native : Text) (ps : Passed) : Passed :=
  ps.map fun (c, natives) => if c = component then (c, natives ++ [native]) else (c, natives)

/-- Takes note of one prop of a component. -/
def applyProp (p : HostPolicy) (module : Text) (c : Component) (ps : Passed) (prop : Text) :
    Outcome Passed :=
  if reserved.contains prop || (c.lookup? prop).isSome then .ok ps
  else
    match p.unknown with
    | .strict =>
      .fail (.of .unknownHostProp
        ("unknown host component prop: " ++ c.name ++ "." ++ prop ++ " on " ++ p.platform.name))
    | .passthrough =>
      let name := Casing.native p.platform.bindingMarker prop
      ⟨[.warning Diagnostic.unknownHostProp module
          (c.name ++ " has no prop " ++ prop ++ " on " ++ p.platform.name
            ++ ", passing it through as " ++ name)],
        .ok (pass c.name name ps)⟩
    | .drop =>
      ⟨[.warning Diagnostic.unknownHostProp module
          (c.name ++ " has no prop " ++ prop ++ " on " ++ p.platform.name ++ ", dropping it")],
        .ok ps⟩

/-- Takes note of one opening tag. -/
def applyUsage (p : HostPolicy) (module : Text) (ps : Passed) (u : Script.Usage) :
    Outcome Passed :=
  match p.platform.component? u.component with
  | some c => u.props.foldlM (p.applyProp module c) (note c.name ps)
  | none =>
    let message := u.component ++ " is not supported on " ++ p.platform.name
    if p.unknown = .strict then
      .fail (.of .unknownHostComponent ("unknown host component: " ++ message))
    else ⟨[.warning Diagnostic.unknownHostComponent module message], .ok ps⟩

/-- The host components a module renders, in ascending order, each with the props passed through to
it. -/
def apply (p : HostPolicy) (module : Text) (usages : List Script.Usage) :
    Outcome (List HostUsage) := do
  let ps ← usages.foldlM (p.applyUsage module) []
  return (ps.mergeSort fun a b => Text.le a.1 b.1).map fun (c, natives) =>
    ⟨c, Text.sortUnique natives⟩

end HostPolicy

end MiniProgram
