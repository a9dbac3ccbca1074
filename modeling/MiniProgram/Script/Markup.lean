import MiniProgram.Script.Lexer
import MiniProgram.Text.Blank
import MiniProgram.Text.Search

/-!
Host components in the markup of a script: which components are imported from the host module, under
which local names, and with which attributes they are rendered.
-/

namespace MiniProgram

namespace Script

/-! ### Host imports -/

/-- Local names bound to host components, each local once. -/
abbrev Locals := List (Text × Text)

namespace Locals

/-- Binds a local name, in the place of an earlier binding. -/
def bind (ls : Locals) (name component : Text) : Locals :=
  if ls.any (·.1 = name) then ls.map fun l => if l.1 = name then (name, component) else l
  else ls ++ [(name, component)]

/-- The component a local name is bound to. -/
def find? (ls : Locals) (name : Text) : Option Text := List.lookup name ls

end Locals

/-- A list in braces at the head of a text: what stands between the braces and what follows. -/
def braced? : Text → Option (Text × Text)
  | Byte.openBrace :: t =>
    match t.dropWhile (· ≠ Byte.closeBrace) with
    | _ :: rest => some (t.takeWhile (· ≠ Byte.closeBrace), rest)
    | [] => none
  | _ => none

/-- A named import from the host module; finds the list between the braces. -/
def hostImportPattern (hostModule : Text) : Recognizer Text := fun before t => do
  let (names, rest) ← braced? (Text.skipSpace (← Text.afterWord? "import" before t))
  match Text.skipSpace (← Text.after? "from" (Text.skipSpace rest)) with
  | q :: rest =>
    match Text.after? hostModule rest with
    | some (e :: rest) =>
      if Byte.isQuote q && Byte.isQuote e then some (t.length - rest.length, names) else none
    | _ => none
  | [] => none

/-- The binding one item of an import list makes: `Name` or `Name as local`. -/
def bindItem (ls : Locals) (item : Text) : Locals :=
  match Text.fields item with
  | [name] => ls.bind name name
  | [name, word, newName] => if word = ("as" : Text) then ls.bind newName name else ls
  | _ => ls

/-- The local names a script binds to components of the host module. -/
def hostImports (hostModule code : Text) : Locals :=
  (Search.hits (hostImportPattern hostModule) code).foldl
    (fun ls hit => (Text.split Byte.comma hit.found).foldl bindItem ls) []

/-! ### Attributes of an opening tag -/

/-- Where the scan of an opening tag stands: between attributes, inside a value in quotes, or inside
an attribute name whose bytes so far are given, last first. -/
inductive TagState where
  | between
  | literal (quote : UInt8)
  | escaped (quote : UInt8)
  | name (bytes : Text)
deriving DecidableEq, Repr

/-- A byte that continues an attribute name. -/
def isAttributeByte (b : UInt8) : Bool := Byte.isIdent b || b == Byte.hyphen || b == Byte.colon

/-- The attribute name read so far, if any. -/
def TagState.finished : TagState → List Text
  | name bytes => [bytes.reverse]
  | _ => []

/-- The state and the open braces after a byte that belongs to no name and no literal. -/
def tagStep (depth : Nat) (b : UInt8) : TagState × Nat :=
  if opensLiteral b then (.literal b, depth)
  else if b = Byte.openBrace then (.between, depth + 1)
  else if b = Byte.closeBrace then (.between, depth - 1)
  else if depth = 0 && Byte.isIdent b then (.name [b], depth)
  else (.between, depth)

/-- The attribute names of an opening tag, and the text from the `>` that ends it, empty if none
does. Values in quotes or braces, `depth` of which are open, are passed over. -/
def scanAttrsFrom : TagState → (depth : Nat) → Text → List Text × Text
  | s, _, [] => (s.finished, [])
  | .literal q, depth, b :: t =>
    if b = Byte.backslash then scanAttrsFrom (.escaped q) depth t
    else scanAttrsFrom (if endsLiteral q b then .between else .literal q) depth t
  | .escaped q, depth, _ :: t => scanAttrsFrom (.literal q) depth t
  | .name bytes, depth, b :: t =>
    if isAttributeByte b then scanAttrsFrom (.name (b :: bytes)) depth t
    else if b = Byte.greater then ([bytes.reverse], b :: t)
    else
      let (s, depth) := tagStep depth b
      let (attrs, rest) := scanAttrsFrom s depth t
      (bytes.reverse :: attrs, rest)
  | .between, depth, b :: t =>
    if depth = 0 && b = Byte.greater then ([], b :: t)
    else
      let (s, depth) := tagStep depth b
      scanAttrsFrom s depth t

/-- The attribute names of the opening tag whose name has just been read, and the text from the `>`
that ends the tag. -/
def scanAttrs (t : Text) : List Text × Text := scanAttrsFrom .between 0 t

/-! ### Usages -/

/-- An opening tag of a host component: the component and the attributes written on it. -/
structure Usage where
  component : Text
  props : List Text
deriving DecidableEq, Repr

/-- A byte of a tag name. -/
def isTagByte (b : UInt8) : Bool := Byte.isIdent b || b == Byte.dot

/-- The usages in the rest of a script, of which the next `skip` bytes belong to a tag already
listed. -/
def usagesFrom (locals : Locals) : (skip : Nat) → Text → List Usage
  | _, [] => []
  | skip + 1, _ :: t => usagesFrom locals skip t
  | 0, b :: t =>
    if b = Byte.less then
      match locals.find? (t.takeWhile isTagByte) with
      | some component =>
        let (props, rest) := scanAttrs (t.dropWhile isTagByte)
        ⟨component, props⟩ :: usagesFrom locals (t.length - (rest.drop 1).length) t
      | none => usagesFrom locals 0 t
    else usagesFrom locals 0 t

/-- The opening tags of host components in a script, from left to right; the search goes on behind
each tag. -/
def jsxUsages (locals : Locals) (code : Text) : List Usage := usagesFrom locals 0 code

end Script

end MiniProgram
