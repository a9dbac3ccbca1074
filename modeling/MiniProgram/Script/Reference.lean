import MiniProgram.Script.Lexer
import MiniProgram.Text.Search

/-!
References of a script to other modules: static imports, re-exports and calls of `require`.

Each of the three forms is recognised by its pattern in the script with comments masked. The
specifier is a run of bytes between two quotes, either of either kind, without a quote or newline in
it.

Main definitions: `scanImports` lists the specifiers of a script in the order in which they are
first seen, and `retargetImports` replaces specifiers or drops the statements that name them.
-/

namespace MiniProgram

namespace Script

/-- A specifier inside a match: how many bytes of the match stand before it, and its bytes. -/
structure Quoted where
  lead : Nat
  spec : Text
deriving DecidableEq, Repr

/-! ### The three patterns -/

/-- A specifier in quotes at the head of a text: its bytes and what follows the closing quote. -/
def quotedSpec? : Text → Option (Text × Text)
  | q :: t =>
    if Byte.isQuote q then
      let stop (b : UInt8) := Byte.isQuote b || b == Byte.newline
      let spec := t.takeWhile (!stop ·)
      match t.dropWhile (!stop ·) with
      | e :: rest => if spec ≠ [] && Byte.isQuote e then some (spec, rest) else none
      | [] => none
    else none
  | [] => none

/-- The match that starts with `whole` and whose quoted specifier begins at `tail`. -/
def matchUpTo (whole tail : Text) : Option (Nat × Quoted) :=
  (quotedSpec? tail).map fun (spec, rest) =>
    (whole.length - rest.length, ⟨whole.length - tail.length + 1, spec⟩)

/-- Whether the text between `import` and the quote is blank or ends in the word `from`. -/
def isImportHead (head : Text) : Bool :=
  match head.reverse.dropWhile Byte.isSpace with
  | [] => true
  | 109 :: 111 :: 114 :: 102 :: before => !before.head?.any Byte.isWord
  | _ => false

/-- A static import: `import`, optionally a clause that ends in `from`, and a specifier. The clause
holds no quote and no semicolon. -/
def importPattern : Recognizer Quoted := fun before t => do
  let clause ← Text.afterWord? "import" before t
  let stop (b : UInt8) := Byte.isQuote b || b == Byte.semicolon
  if Text.atWordEnd clause && isImportHead (clause.takeWhile (!stop ·)) then
    matchUpTo t (clause.dropWhile (!stop ·))
  else none

/-- What follows `from` and white space. -/
def afterFrom? (t : Text) : Option Text := (Text.after? "from" t).map Text.skipSpace

/-- A re-export of everything under a name, given the text after the star: `as`, the name, `from`
and a specifier. The name may run up to `from` without a space between. -/
def namespaceExport? (whole t : Text) : Option (Nat × Quoted) := do
  let spaced ← Text.after? "as" t
  let named := Text.skipSpace spaced
  let name := named.takeWhile Byte.isIdent
  let rest := Text.skipSpace (named.dropWhile Byte.isIdent)
  if spaced.length = named.length || name = [] then none
  else
    ((afterFrom? rest).bind (matchUpTo whole)).or
      (if Text.endsWith name "from" && 4 < name.length then matchUpTo whole rest else none)

/-- A re-export: `export`, a star or a list in braces, `from` and a specifier. -/
def exportPattern : Recognizer Quoted := fun before t => do
  let clause ← Text.afterWord? "export" before t
  if Text.atWordEnd clause then
    match Text.skipSpace clause with
    | Byte.star :: rest =>
      let rest := Text.skipSpace rest
      (namespaceExport? t rest).or ((afterFrom? rest).bind (matchUpTo t))
    | Byte.openBrace :: rest =>
      match rest.dropWhile (· ≠ Byte.closeBrace) with
      | _ :: rest => (afterFrom? (Text.skipSpace rest)).bind (matchUpTo t)
      | [] => none
    | _ => none
  else none

/-- A call of `require` with a specifier as its only argument. -/
def requirePattern : Recognizer Quoted := fun before t => do
  let argument := Text.skipSpace (← Text.afterWord? "require(" before t)
  let (spec, rest) ← quotedSpec? argument
  match Text.skipSpace rest with
  | Byte.closeParen :: rest =>
    some (t.length - rest.length, ⟨t.length - argument.length + 1, spec⟩)
  | _ => none

/-- The forms in which a script refers to another module. -/
inductive ReferenceForm where
  | importing
  | exporting
  | requiring
deriving DecidableEq, Repr

namespace ReferenceForm

/-- The forms in the order in which they are retargeted. -/
def all : List ReferenceForm := [importing, exporting, requiring]

/-- The pattern of a form. -/
def pattern : ReferenceForm → Recognizer Quoted
  | importing => importPattern
  | exporting => exportPattern
  | requiring => requirePattern

end ReferenceForm

/-! ### References with their positions -/

/-- A reference in a script: where its statement starts and how long it is, and where its specifier
starts and what it is. -/
structure Reference where
  start : Nat
  length : Nat
  specStart : Nat
  spec : Text
deriving DecidableEq, Repr

/-- The reference at a match, with the specifier that a script has there. -/
def referenceAt (code : Text) (hit : Hit Quoted) : Reference :=
  let specStart := hit.start + hit.found.lead
  ⟨hit.start, hit.length, specStart, (code.drop specStart).take hit.found.spec.length⟩

@[simp] theorem referenceAt_start (code : Text) (hit : Hit Quoted) :
    (referenceAt code hit).start = hit.start := rfl

@[simp] theorem referenceAt_length (code : Text) (hit : Hit Quoted) :
    (referenceAt code hit).length = hit.length := rfl

/-- The references of one form, found in the masked script and read from the script itself. -/
def references (form : ReferenceForm) (code : Text) : List Reference :=
  (Search.hits form.pattern (maskComments code)).map (referenceAt code)

/-- Every specifier a script refers to, once, in the order in which they are first seen. -/
def scanImports (code : Text) : List Text :=
  let found := ReferenceForm.all.flatMap (references · code)
  ((found.mergeSort fun a b => a.specStart ≤ b.specStart).map (·.spec)).eraseDups

/-- Whether a specifier is relative to the module that uses it. -/
def isRelative (spec : Text) : Bool :=
  spec = ("." : Text) || spec = (".." : Text) || Text.startsWith spec "./"
    || Text.startsWith spec "../"

/-! ### Retargeting -/

/-- What becomes of a reference. -/
inductive Retarget where
  | replace (spec : Text)
  | drop
deriving DecidableEq, Repr

/-- The default binding of an import statement: the name right after `import`, if a comma or `from`
follows it. -/
def defaultBinding? (statement : Text) : Option Text := do
  let spaced ← Text.after? "import" statement
  let named := Text.skipSpace spaced
  let name := named.takeWhile Byte.isIdent
  let rest := named.dropWhile Byte.isIdent
  let after := Text.skipSpace rest
  let followed := match after with
    | Byte.comma :: _ => true
    | _ =>
      rest.length ≠ after.length &&
        match Text.after? "from" after with
        | some t => Text.atWordEnd t
        | none => false
  if spaced.length = named.length || name = [] || !followed then none else some name

/-- What is left of an import statement that is dropped: its default binding, as an empty object. -/
def keptBinding (statement : Text) : Text :=
  match defaultBinding? statement with
  | some name => "var " ++ name ++ " = \x7b\x7d"
  | none => []

/-- The edit that retargets one reference of a script, as start, length and new text. Of an import
that is dropped the default binding is kept, a call of `require` becomes an empty object, and a
re-export is never dropped. -/
def editFor? (code : Text) (form : ReferenceForm) (ref : Reference) :
    Retarget → Option (Nat × Nat × Text)
  | .replace spec => if spec = ref.spec then none else some (ref.specStart, ref.spec.length, spec)
  | .drop =>
    match form with
    | .importing =>
      some (ref.start, ref.length, keptBinding ((code.drop ref.start).take ref.length))
    | .requiring => some (ref.start, ref.length, "\x7b\x7d")
    | .exporting => none

/-- A script whose references are being retargeted, and the specifiers asked about so far. -/
structure Retargeting where
  code : Text
  asked : List Text
deriving DecidableEq, Repr

namespace Retargeting

variable (f : Text → Retarget)

/-- The reference at one match retargeted; what it names and what its statement says is read from
the script as it stands. -/
def step (form : ReferenceForm) (hit : Hit Quoted) (s : Retargeting) : Retargeting :=
  let ref := referenceAt s.code hit
  ⟨Search.splice 0 (editFor? s.code form ref (f ref.spec)).toList s.code, s.asked ++ [ref.spec]⟩

/-- The references of one form retargeted, the last one first: an edit moves what follows it, and
the places of the references before it stay as they were found. -/
def pass (s : Retargeting) (form : ReferenceForm) : Retargeting :=
  (Search.hits form.pattern (maskComments s.code)).foldr (step f form) s

/-- All references retargeted, one form after the other. -/
def run (code : Text) : Retargeting := ReferenceForm.all.foldl (pass f) ⟨code, []⟩

end Retargeting

/-- A script after its references were retargeted. -/
def retargetImports (f : Text → Retarget) (code : Text) : Text := (Retargeting.run f code).code

/-- The specifiers that retargeting asks about: for each form those of the script so far, last one
first. -/
def retargetQueries (f : Text → Retarget) (code : Text) : List Text :=
  (Retargeting.run f code).asked

end Script

end MiniProgram
