import MiniProgram.Json.Reader

/-!
The manifest of a program: the JSON document that lists the routes of its pages.

Reading goes member by member. A repeated list overwrites the one before it element by element, and
an element that is null keeps what the overwritten list held at its place.
-/

namespace MiniProgram

/-- The manifest: the routes of the pages. -/
structure Manifest where
  pages : List Text
deriving DecidableEq, Repr

namespace Manifest

/-- The key of the list of pages. -/
def pagesKey : Text := "pages"

/-- The manifest as an indented document. -/
def render (m : Manifest) : Text :=
  let list : Text :=
    if m.pages = [] then "[]"
    else
      let lines := m.pages.map fun p => "    " ++ Json.renderString p
      "[\n" ++ Text.join ",\n" lines ++ "\n  ]"
  "\x7b\n  " ++ Json.renderString pagesKey ++ ": " ++ list ++ "\n\x7d"

/-- Where the reading stands: every element written so far, and how many of them are the list. -/
structure Slots where
  written : List Text
  size : Nat

/-- The elements of a list read over those written before. -/
def overwrite? : (old : List Text) → List Json → Option (List Text)
  | _, [] => some []
  | old, .string t :: vs => (overwrite? (old.drop 1) vs).map (t :: ·)
  | old, .null :: vs => (overwrite? (old.drop 1) vs).map (old.headD [] :: ·)
  | _, _ :: _ => none

/-- The reading after one more member. -/
def readMember? (s : Slots) : Text × Json → Option Slots
  | (key, v) =>
    if !Json.names key pagesKey then some s
    else
      match v with
      | .null => some ⟨[], 0⟩
      | .array [] => some ⟨[], 0⟩
      | .array vs =>
        (overwrite? s.written vs).map fun new => ⟨new ++ s.written.drop vs.length, vs.length⟩
      | _ => none

/-- The manifest a text holds. -/
def parse? (t : Text) : Option Manifest := do
  match ← Json.parse? Json.nestingLimit t with
  | .null => return ⟨[]⟩
  | .object members =>
    let s ← members.foldlM readMember? ⟨[], 0⟩
    return ⟨s.written.take s.size⟩
  | _ => none

end Manifest

end MiniProgram
