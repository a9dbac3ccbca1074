import MiniProgram.Script.Markup

/-!
The default export of an entry, turned into a local binding so that it can be passed on.

`export default X` becomes a binding of `X`; failing that, the first export list with an item
`X as default` loses that item and a binding of `X` follows it.
-/

namespace MiniProgram

namespace Script

/-- The local name the default export is bound to. -/
def entryBinding : Text := "__mini_entry"

/-- `export default` and the white space after it. -/
def exportDefaultPattern : Recognizer Unit := fun before t => do
  let spaced ← Text.afterWord? "export" before t
  let word := Text.skipSpace spaced
  let rest ← Text.after? "default" word
  let value := Text.skipSpace rest
  if word.length = spaced.length || value.length = rest.length then none
  else some (t.length - value.length, ())

/-- An export list in braces, with the white space and the semicolon after it; finds the list. -/
def exportListPattern : Recognizer Text := fun before t => do
  let (items, rest) ← braced? (Text.skipSpace (← Text.afterWord? "export" before t))
  let rest := Text.trimStart (Text.skipSpace rest) ";"
  some (t.length - rest.length, items)

/-- The items of an export list without those exported as default, and the last local name so
exported. -/
def splitDefault (items : List Text) : List Text × Option Text :=
  items.foldl (fun (kept, found) item =>
    match Text.fields item with
    | [] => (kept, found)
    | [name, word, newName] =>
      if word = ("as" : Text) && newName = ("default" : Text) then (kept, some name)
      else (kept ++ [Text.join " " [name, word, newName]], found)
    | fields => (kept ++ [Text.join " " fields], found)) ([], none)

/-- What an export list becomes when it exports a default: the list without it, then the binding. -/
def bindInList? (items : Text) : Option Text :=
  match splitDefault (Text.split Byte.comma items) with
  | (_, none) => none
  | (kept, some name) =>
    let exports : Text :=
      if kept = [] then [] else "export \x7b " ++ Text.join ", " kept ++ " \x7d;"
    some (exports ++ "\nconst " ++ entryBinding ++ " = " ++ name ++ ";")

/-- A script with its default export bound to a local name; `none` if it has none. -/
def bindDefaultExport (code : Text) : Option Text :=
  match Search.hits exportDefaultPattern code with
  | hit :: _ =>
    some (Search.splice 0 [(hit.start, hit.length, "const " ++ entryBinding ++ " = ")] code)
  | [] =>
    (Search.hits exportListPattern code).findSome? fun hit =>
      (bindInList? hit.found).map fun new => Search.splice 0 [(hit.start, hit.length, new)] code

end Script

end MiniProgram
