import MiniProgram.Casing
import MiniProgram.Text.Quoted

/-!
Host components: how the portable props of a component are called on a platform.

A component is made from its declared props by `ofSpecs`: a prop without a native name of its own
gets one by the casing rules. Props and native names are distinct within a component, and a native
name holds nothing that would end an attribute in markup.
-/

namespace MiniProgram

/-- A declared prop; without an override the casing rules decide its native name. -/
structure PropSpec where
  prop : Text
  override : Text
deriving DecidableEq, Repr

/-- A prop, its native name, and whether it is an event handler. -/
structure PropAlias where
  prop : Text
  native : Text
  event : Bool
deriving DecidableEq, Repr

/-- A component on a platform: its portable name, its tag, and its props in declaration order. -/
structure Component where
  name : Text
  tag : Text
  aliases : List PropAlias
deriving DecidableEq, Repr

namespace Component

/-- Why a component cannot be made. -/
inductive Flaw where
  | noName
  | noProps (component : Text)
  | emptyProp (component : Text)
  | repeatedProp (component prop : Text)
  | badNative (component prop native : Text)
  | sharedNative (component first second native : Text)
deriving DecidableEq, Repr

/-- The wording of a flaw. -/
def Flaw.message : Flaw → Text
  | noName => "component without a name"
  | noProps c => c ++ " declares no props"
  | emptyProp c => c ++ " has an empty prop name"
  | repeatedProp c p => c ++ " declares " ++ p ++ " twice"
  | badNative c p n => c ++ "." ++ p ++ ": invalid native attribute " ++ Text.quote n
  | sharedNative c p q n => c ++ " maps " ++ p ++ " and " ++ q ++ " to " ++ Text.quote n

/-- The bytes that may not occur in a native name. -/
def forbidden : Text := " \t\n\"'<>=/\x7b\x7d"

/-- Whether a native name can stand as an attribute. -/
def isNativeName (native : Text) : Bool := !Text.includesAny native forbidden

/-- The alias of a declared prop. -/
def aliasOf (marker : Text) (spec : PropSpec) : PropAlias where
  prop := spec.prop
  native := if spec.override = [] then Casing.native marker spec.prop else spec.override
  event := Casing.isEventProp spec.prop

/-- The aliases with that of one more declared prop. -/
def addSpec (name marker : Text) (aliases : List PropAlias) (spec : PropSpec) :
    Except Flaw (List PropAlias) :=
  let a := aliasOf marker spec
  if spec.prop = [] then .error (.emptyProp name)
  else if aliases.any (·.prop = spec.prop) then .error (.repeatedProp name spec.prop)
  else if !isNativeName a.native then .error (.badNative name spec.prop a.native)
  else
    match aliases.find? (·.native = a.native) with
    | some other => .error (.sharedNative name other.prop spec.prop a.native)
    | none => .ok (aliases ++ [a])

/-- The component with the declared props; without a tag of its own it gets one by the casing
rules. -/
def ofSpecs (name tag marker : Text) (specs : List PropSpec) : Except Flaw Component := do
  if name = [] then throw .noName
  if specs = [] then throw (.noProps name)
  let aliases ← specs.foldlM (addSpec name marker) []
  return ⟨name, if tag = [] then Casing.kebab name else tag, aliases⟩

/-- The native name of a prop. -/
def lookup? (c : Component) (prop : Text) : Option Text :=
  (c.aliases.find? (·.prop = prop)).map (·.native)

/-- The native names in declaration order: the attributes the component may have. -/
def props (c : Component) : List Text := c.aliases.map (·.native)

/-- Whether a name is one of the component's native names. -/
def hasNative (c : Component) (native : Text) : Bool := c.aliases.any (·.native = native)

end Component

end MiniProgram
