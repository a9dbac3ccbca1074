import MiniProgram.Text.Base64
import MiniProgram.Text.Quoted
import MiniProgram.Yaml.Value

/-!
Reading typed values from the nodes of a document.

A value of the wrong type does not end the reading: all such flaws are collected, in the order in
which they are met, and the value is left out. A malformed document, a scalar whose spelling does
not fit its tag and a mapping merged into itself end it at once.
-/

namespace MiniProgram

namespace Yaml

/-! ### Flaws -/

/-- A place where a document does not have the expected type. -/
inductive TypeFlaw where
  /-- A node with the given tag, and text if it is a scalar, stands where `target` is expected. -/
  | mismatch (line : Nat) (tag : Text) (text : Option Text) (target : Text)
  /-- A mapping has a key twice. -/
  | duplicateKey (line : Nat) (key : Text) (first : Nat)
  /-- Two keys of a mapping set the same field. -/
  | repeatedField (line : Nat) (field target : Text)
deriving DecidableEq, Repr

/-- The text of a scalar as it is shown in a message: all of it, or the beginning of a long one. -/
def excerpt (t : Text) : Text :=
  if 10 < t.length then " `" ++ t.take 7 ++ "...`" else " `" ++ t ++ "`"

/-- The wording of a type flaw. -/
def TypeFlaw.message : TypeFlaw → Text
  | mismatch line tag text target =>
    "line " ++ Text.ofNat line ++ ": cannot unmarshal " ++ tag ++ (text.map excerpt).getD []
      ++ " into " ++ target
  | duplicateKey line key first =>
    "line " ++ Text.ofNat line ++ ": mapping key " ++ Text.quote key ++ " already defined at line "
      ++ Text.ofNat first
  | repeatedField line field target =>
    "line " ++ Text.ofNat line ++ ": field " ++ field ++ " already set in type " ++ target

/-- Why a document cannot be read. -/
inductive Flaw where
  | malformed
  | types (flaws : List TypeFlaw)
deriving DecidableEq, Repr

/-- The wording of a flaw. -/
def Flaw.message : Flaw → Text
  | malformed => "yaml: <syntax>"
  | types flaws => "yaml: unmarshal errors:\n  " ++ Text.join "\n  " (flaws.map (·.message))

/-! ### Decoders -/

/-- A reading that collects type flaws and may fail. -/
abbrev Decoder (α : Type) := StateT (List TypeFlaw) Option α

namespace Decoder

/-- Notes a type flaw. -/
def report (f : TypeFlaw) : Decoder Unit := modify (· ++ [f])

/-- The result of a decoder, if it met no flaw. -/
def result {α : Type} (d : Decoder α) : Except Flaw α :=
  match d.run [] with
  | none => .error .malformed
  | some (a, []) => .ok a
  | some (_, flaws) => .error (.types flaws)

end Decoder

/-- The node a reference stands for, any other node itself. -/
def Node.target? (n root : Node) : Option Node :=
  match n with
  | .reference _ _ anchor => root.find? anchor
  | n => some n

/-- The flaws of a mapping with repeated keys. -/
def duplicateKeys : List (Node × Node) → List TypeFlaw
  | [] => []
  | (k, _) :: rest =>
    (rest.filterMap fun (other, _) =>
      if k.sameKind other && k.text = other.text then
        some (.duplicateKey other.line other.text k.line)
      else none) ++ duplicateKeys rest

/-- Notes that a node is not what `target` names. Of a mapping with repeated keys, these are noted
instead. -/
def mismatch (target : Text) (n : Node) : Decoder Unit :=
  match n with
  | .mapping _ entries =>
    match duplicateKeys entries with
    | [] => .report (.mismatch n.line n.tag (shown n) target)
    | flaws => modify (· ++ flaws)
  | _ => .report (.mismatch n.line n.tag (shown n) target)
where
  /-- The text shown of a node: none if its tag says that it is a collection. -/
  shown (n : Node) : Option Text :=
    if n.tag = sequenceTag || n.tag = mappingTag then none else some n.text

/-! ### Scalars -/

/-- The value of a scalar node. -/
def scalarValue? (h : Header) (style : Style) (t : Text) : Option Value :=
  let tag := if h.tag = ("!" : Text) then [] else h.tag
  if tag = binaryTag then (Base64.decode? t).map Value.text
  else if tag = [] then
    some (if style ≠ .plain || t = ("<<" : Text) then .text t else spelled true t)
  else resolve? tag t

/-- Reads a scalar with the given conversion; anything else is no `target`. Null is no value. -/
def scalar {α : Type} (target : Text) (convert : (text : Text) → Value → Option α) (root n : Node) :
    Decoder (Option α) := do
  let n ← n.target? root
  match n with
  | .scalar h style t =>
    match ← scalarValue? h style t with
    | .null => return none
    | v =>
      match convert t v with
      | some a => return some a
      | none =>
        mismatch target n
        return none
  | _ =>
    mismatch target n
    return none

/-- Reads a text, which any scalar is. -/
def text (root n : Node) : Decoder (Option Text) :=
  scalar "string" (fun t v => some (match v with | .text t => t | _ => t)) root n

/-- The spellings of truth values beside `true` and `false`. -/
def isYes (t : Text) : Bool :=
  (["y", "Y", "yes", "Yes", "YES", "on", "On", "ON"] : List Text).contains t

/-- The spellings of the opposite. -/
def isNo (t : Text) : Bool :=
  (["n", "N", "no", "No", "NO", "off", "Off", "OFF"] : List Text).contains t

/-- Reads a truth value. -/
def bool (root n : Node) : Decoder (Option Bool) :=
  scalar "bool" (fun _ v =>
    match v with
    | .bool b => some b
    | .text t => if isYes t then some true else if isNo t then some false else none
    | _ => none) root n

/-- Reads an integer of 64 bits. A floating-point number that is not too great is truncated; one
that is too small becomes the least integer. -/
def int (root n : Node) : Decoder (Option Int) :=
  let limit : Int := signedLimit
  scalar "int" (fun _ v =>
    match v with
    | .int i => if i < limit then some i else none
    | .float (.infinity true) => some (-limit)
    | .float x =>
      match x.truncate? with
      | some i =>
        if i < limit && -limit ≤ i then some i else if i ≤ limit then some (-limit) else none
      | none => none
    | _ => none) root n

/-- Reads a floating-point number. -/
def float (root n : Node) : Decoder (Option Binary64) :=
  scalar "float64" (fun _ v =>
    match v with
    | .int i => some (Binary64.ofInt i)
    | .float x => some x
    | _ => none) root n

/-! ### Collections -/

/-- Reads a list of texts, of which items without a value are left out. -/
def texts (root n : Node) : Decoder (Option (List Text)) := do
  let n ← n.target? root
  match n with
  | .sequence _ items => return some ((← items.mapM (text root)).filterMap id)
  | .scalar h style t =>
    match ← scalarValue? h style t with
    | .null => return some []
    | _ =>
      mismatch "[]string" n
      return none
  | _ =>
    mismatch "[]string" n
    return none

/-- Whether a key merges another mapping into its own. -/
def isMergeKey (n : Node) : Bool :=
  match n with
  | .scalar _ _ t => t = ("<<" : Text) && n.tag = mergeTag
  | _ => false

/-- The keys of a mapping that are texts. -/
def textKeys (root : Node) (entries : List (Node × Node)) : List Text :=
  entries.filterMap fun (k, _) => do
    match ← k.target? root with
    | .scalar h style t =>
      match ← scalarValue? h style t with
      | .text t => some t
      | _ => none
    | _ => none

/-- How a mapping is read: the name of what is expected, the fields it has if these are fixed, and
what becomes of an entry. -/
structure Shape (σ : Type) where
  target : Text
  fields : Option (List Text)
  entry : σ → (key : Text) → (value : Node) → Decoder σ

/-- Where the reading of a mapping stands: what was read so far, the fields set in this mapping, the
mapping to be merged, and, inside a merged mapping, the keys that count as set. -/
structure Progress (σ : Type) where
  value : σ
  done : List Text
  merge : Option Node
  taken : Option (List Text)

/-- Reads one entry of a mapping. -/
def readEntry {σ : Type} (shape : Shape σ) (root : Node) (p : Progress σ) :
    Node × Node → Decoder (Progress σ)
  | (k, v) => do
    if isMergeKey k then return { p with merge := some v }
    match ← text root k with
    | none => return p
    | some key =>
      if p.taken.any (·.contains key) then return p
      let p := { p with taken := p.taken.map (key :: ·) }
      match shape.fields with
      | none => return { p with value := ← shape.entry p.value key v }
      | some fields =>
        if !fields.contains key then return p
        else if p.done.contains key then
          .report (.repeatedField k.line key shape.target)
          return p
        else return { p with value := ← shape.entry p.value key v, done := key :: p.done }

/-- Whether a node may be merged: a mapping, or a reference to one. -/
def isMergeable (root : Node) (n : Node) : Bool :=
  match n.target? root with
  | some (.mapping ..) => true
  | _ => false

/-- Reads a mapping on top of a value, on the given fuel, and tells which keys count as set in a
merged one. Keys of the mapping itself win over those of a merged one, and of several merged ones
the first wins. -/
def mappingFrom {σ : Type} (shape : Shape σ) (root : Node) :
    (fuel : Nat) → (taken : Option (List Text)) → σ → Node → Decoder (σ × Option (List Text))
  | 0, _, _, _ => failure
  | fuel + 1, taken, s, n => do
    let n ← n.target? root
    match n with
    | .mapping _ entries =>
      match duplicateKeys entries with
      | [] =>
        let p ← entries.foldlM (readEntry shape root) (Progress.mk s [] none taken)
        match p.merge with
        | none => return (p.value, p.taken)
        | some m =>
          let sources ← match m with
            | .sequence _ items => some items
            | m => some [m]
          if !sources.all (isMergeable root) then failure
          let start := p.taken.getD (textKeys root entries)
          let (value, inner) ← sources.foldlM (fun (acc : σ × Option (List Text)) source =>
            mappingFrom shape root fuel acc.2 acc.1 source) (p.value, some start)
          return (value, p.taken.bind fun _ => inner)
      | flaws =>
        modify (· ++ flaws)
        return (s, taken)
    | .scalar h style t =>
      match ← scalarValue? h style t with
      | .null => return (s, taken)
      | _ =>
        mismatch shape.target n
        return (s, taken)
    | .sequence .. =>
      mismatch shape.target n
      return (s, taken)
    | .reference .. => failure

/-- Reads a mapping on top of a value. -/
def mapping {σ : Type} (shape : Shape σ) (root : Node) (fuel : Nat) (s : σ) (n : Node) :
    Decoder σ := do
  return (← mappingFrom shape root fuel none s n).1

/-- Puts a value under a key, in the place of an earlier one. -/
def setKey {α : Type} (key : Text) (a : α) (kvs : List (Text × α)) : List (Text × α) :=
  if kvs.any (·.1 = key) then kvs.map fun kv => if kv.1 = key then (key, a) else kv
  else kvs ++ [(key, a)]

/-- Reads a mapping from texts to lists of texts. -/
def textLists (fuel : Nat) (root n : Node) : Decoder (Option (List (Text × List Text))) := do
  let shape : Shape (Option (List (Text × List Text))) := {
    target := "map[string][]string"
    fields := none
    entry := fun s key v => do
      match ← texts root v with
      | some ts => return some (setKey key ts (s.getD []))
      | none => return s }
  let target ← n.target? root
  let start := match target with
    | .mapping .. => some []
    | _ => none
  mapping shape root fuel start n

/-- The value a document holds, read by its shape on top of a default; an empty stream is the
default. -/
def decode {σ : Type} (shape : (root : Node) → (fuel : Nat) → Shape σ) (default : σ) (t : Text) :
    Except Flaw σ :=
  match parse? t with
  | none => .error .malformed
  | some none => .ok default
  | some (some root) =>
    let fuel := root.size + 1
    (mapping (shape root fuel) root fuel default root).result

end Yaml

end MiniProgram
