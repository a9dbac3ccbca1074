import MiniProgram.Script.Reference
import MiniProgram.Text.Quoted

/-!
Interoperation with CommonJS packages.

A script that assigns `module.exports` or calls `require`, and has no line that starts with an
`import` or `export` statement, is wrapped into an ES module: each specifier it requires becomes one
hoisted default import, `module.exports` becomes the default export, and the names asked for are
re-exported from it.
-/

namespace MiniProgram

namespace Script

/-! ### Detection -/

/-- Whether an `import` or `export` statement starts a text. -/
def startsModuleSyntax (t : Text) : Bool :=
  (match Text.after? "import" t with
    | some rest =>
      (Text.skipSpace rest).head?.any fun b =>
        Byte.isWord b || b == Byte.openBrace || b == Byte.star || Byte.isQuote b
    | none => false)
  || (match Text.after? "export" t with
    | some rest => rest.head?.any Byte.isSpace
    | none => false)

/-- Whether some line starts with an `import` or `export` statement; `lineStart` says that only
white space stands between the start of the line and here. -/
def hasModuleSyntaxFrom : (lineStart : Bool) → Text → Bool
  | _, [] => false
  | lineStart, b :: t =>
    (lineStart && startsModuleSyntax (b :: t))
      || hasModuleSyntaxFrom (b == Byte.newline || (lineStart && Byte.isSpace b)) t

/-- A mark of a CommonJS script: `module.exports`, an assignment to a property of `exports`, or the
start of a call of `require` with a string. -/
def commonMark : Recognizer Unit := fun before t =>
  let marked :=
    (Text.afterWord? "module.exports" before t).any Text.atWordEnd
    || (Text.afterWord? "exports." before t).any (fun rest =>
      rest.head?.any Byte.isIdent
        && (Text.skipSpace (rest.dropWhile Byte.isIdent)).head? = some Byte.equals)
    || (Text.afterWord? "require(" before t).any (fun rest =>
      (Text.skipSpace rest).head?.any Byte.isQuote)
  if marked then some (1, ()) else none

/-- Whether a script is a CommonJS one. -/
def isCommonJS (code : Text) : Bool :=
  !hasModuleSyntaxFrom true code && Search.occurs commonMark code

/-! ### Wrapping -/

/-- A named export that is no identifier. -/
structure BadExportName where
  name : Text
deriving DecidableEq, Repr

/-- The wording for a named export that is no identifier. -/
def BadExportName.message (e : BadExportName) : Text :=
  "named export " ++ Text.quote e.name ++ " is not an identifier"

/-- Whether a text is an identifier: identifier bytes, the first of them no digit. -/
def isIdentifier (name : Text) : Bool :=
  name.head?.any (fun b => !Byte.isDigit b) && name.all Byte.isIdent

/-- The binding of the import number `n`. -/
def requireBinding (n : Nat) : Text := "__require" ++ Text.ofNat n

/-- The specifiers a script requires, each once, in the order of their first calls. -/
def requiredSpecs (source : Text) : List Text :=
  ((Search.hits requirePattern source).map (·.found.spec)).eraseDups

/-- The exports of the names asked for; the default export is there already. -/
def exportNames (names : List Text) : Except BadExportName Text :=
  names.foldlM (fun out name =>
    if name = ("default" : Text) then .ok out
    else if isIdentifier name then
      .ok (out ++ "export var " ++ name ++ " = __default." ++ name ++ ";\n")
    else .error ⟨name⟩) []

/-- A CommonJS script as an ES module with the given named exports. -/
def wrapCommonJS (source : Text) (names : List Text) : Except BadExportName Text := do
  let specs := requiredSpecs source
  let header : Text := specs.zipIdx.flatMap fun (spec, n) =>
    ("import " : Text) ++ requireBinding n ++ " from " ++ Text.quote spec ++ ";\n"
  let body := Search.replace requirePattern (fun q => requireBinding (specs.idxOf q.spec)) source
  let exports ← exportNames names
  let lineEnd : Text := if Text.endsWith body "\n" then [] else "\n"
  return header
    ++ "var module = \x7b exports: \x7b\x7d \x7d;\n"
    ++ "var exports = module.exports;\n"
    ++ body ++ lineEnd
    ++ "var __default = module.exports;\n"
    ++ "export default __default;\n"
    ++ exports

end Script

end MiniProgram
