import MiniProgram.Platform.Toutiao

/-!
The registry of platforms, each name once, and the questions it answers about components and props.
-/

namespace MiniProgram

/-- The known platforms. -/
structure Registry where
  platforms : List Platform
deriving DecidableEq, Repr

namespace Registry

/-- The registry without platforms. -/
def empty : Registry := ⟨[]⟩

/-- Adds a platform, whose name must be new. -/
def register (r : Registry) (p : Platform) : Except Platform.TableFlaw Registry :=
  if r.platforms.any (·.name = p.name) then .error (.repeatedPlatform p.name)
  else .ok ⟨r.platforms ++ [p]⟩

/-- The registry of some platforms. -/
def ofPlatforms (ps : List Platform) : Except Platform.TableFlaw Registry :=
  ps.foldlM register empty

/-- Whether a file name is that of a table: a plain name that ends in `.yaml`. -/
def isTableName (name : Text) : Bool := Text.endsWith name ".yaml" && Byte.slash ∉ name

/-- Adds the platform of a table file. -/
def registerFile (r : Registry) (file : Text × Text) : Except Platform.TableFlaw Registry :=
  (Platform.parse file.2 >>= r.register).mapError (.inFile file.1)

/-- The registry of the tables among some files, read in ascending order of their names. -/
def load (files : List (Text × Text)) : Except Platform.TableFlaw Registry :=
  ((files.filter fun f => isTableName f.1).mergeSort fun a b => Text.le a.1 b.1).foldlM
    registerFile empty

/-- The registry every build starts from. -/
def standard : Registry := ⟨[Platform.Toutiao.platform]⟩

/-- The names of the platforms, in ascending order. -/
def names (r : Registry) : List Text := Text.sort (r.platforms.map (·.name))

/-! ### Questions -/

/-- Why a question about a prop has no answer. -/
inductive LookupFlaw where
  | unknownPlatform (platform : Text)
  | unsupportedComponent (component platform : Text)
  | unrecognizedProp (component prop platform : Text)
deriving DecidableEq, Repr

namespace LookupFlaw

/-- The wording of a flaw. -/
def message : LookupFlaw → Text
  | unknownPlatform p => "unknown platform: " ++ p
  | unsupportedComponent c p => "component not supported on this platform: " ++ c ++ " on " ++ p
  | unrecognizedProp c q p => "unrecognized prop: " ++ c ++ "." ++ q ++ " on " ++ p

/-- The fault a flaw belongs to. -/
def fault : LookupFlaw → Fault
  | unknownPlatform _ => .unknownPlatform
  | unsupportedComponent .. => .unsupportedComponent
  | unrecognizedProp .. => .unrecognizedProp

/-- The flaw as a failure. -/
def failure (f : LookupFlaw) : Failure := .of f.fault f.message

end LookupFlaw

/-- The platform with a name. -/
def platform (r : Registry) (name : Text) : Except LookupFlaw Platform :=
  match r.platforms.find? (·.name = name) with
  | some p => .ok p
  | none => .error (.unknownPlatform name)

/-- The component of a platform. -/
def component (r : Registry) (platform name : Text) : Except LookupFlaw Component := do
  let p ← r.platform platform
  match p.component? name with
  | some c => return c
  | none => throw (.unsupportedComponent name p.name)

/-- The native name of a prop of a component of a platform. -/
def lookup (r : Registry) (platform component prop : Text) : Except LookupFlaw Text := do
  let c ← r.component platform component
  match c.lookup? prop with
  | some native => return native
  | none => throw (.unrecognizedProp component prop platform)

end Registry

end MiniProgram
