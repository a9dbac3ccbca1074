import MiniProgram.Json.Reader
import MiniProgram.Stage

/-!
The transpiler service: what it is asked, how its answers are read, and what can go wrong.

A request carries the path, the source and the dialect of a script as JSON. The answer holds the
code and its source map, or an error. Keys are read without regard to letter case, a later member
adds to what an earlier one of the same key has set, and `null` sets nothing, except that it takes
an error back.
-/

namespace MiniProgram

namespace Transpiler

/-! ### Requests -/

/-- The path of the service that transforms a script. -/
def route : Text := "/transform"

/-- The type of the content of requests. -/
def contentType : Text := "application/json"

/-- The content of a request. -/
def requestBody (r : TransformRequest) : Json :=
  .object [("code", .string r.source), ("loader", .string r.dialect.name), ("path", .string r.path)]

/-! ### Answers -/

/-- An error the service reports. -/
structure Complaint where
  message : Text
  stack : Text
deriving DecidableEq, Repr

/-- An answer of the service. -/
structure Reply where
  code : Text
  map : Text
  error : Option Complaint
deriving DecidableEq, Repr

/-- The answer in which nothing is set. -/
def Reply.empty : Reply := ⟨[], [], none⟩

/-- A text member: the old text if it is `null`, and `none` if it is no text. -/
def textMember? (old : Text) : Json → Option Text
  | .null => some old
  | .string t => some t
  | _ => none

/-- The error with one more member read. -/
def Complaint.addMember? (c : Complaint) (member : Text × Json) : Option Complaint := do
  let (key, v) := member
  if Json.names key "message" then return { c with message := ← textMember? c.message v }
  else if Json.names key "stack" then return { c with stack := ← textMember? c.stack v }
  else return c

/-- The answer with one more member read. -/
def Reply.addMember? (r : Reply) (member : Text × Json) : Option Reply := do
  let (key, v) := member
  if Json.names key "code" then return { r with code := ← textMember? r.code v }
  else if Json.names key "map" then return { r with map := ← textMember? r.map v }
  else if Json.names key "error" then
    match v with
    | .null => return { r with error := none }
    | .object members =>
      let complaint ← members.foldlM Complaint.addMember? (r.error.getD ⟨[], []⟩)
      return { r with error := some complaint }
    | _ => none
  else return r

/-- The answer at the beginning of a text. -/
def Reply.read? (body : Text) : Option Reply := do
  match ← Json.parseFirst? Json.nestingLimit body with
  | (.null, _) => return .empty
  | (.object members, _) => members.foldlM Reply.addMember? .empty
  | _ => none

/-! ### Calls -/

/-- Why a call came to nothing. -/
inductive CallFlaw where
  | stopped
  | canceled
  | status (code : Int)
  | malformed
  | refused (c : Complaint)
deriving DecidableEq, Repr

/-- The failure of a call about a path. -/
def CallFlaw.failure (path : Text) : CallFlaw → Failure
  | stopped => .of .transpilerStopped "transpiler stopped"
  | canceled => Failure.canceled.within ("transform " ++ path)
  | status code =>
    (Failure.plain ("unexpected status " ++ Text.ofInt code)).within ("transform " ++ path)
  | malformed => (Failure.plain "malformed answer").within ("transform " ++ path)
  | refused c =>
    let stack : Text := if c.stack = [] then [] else "\n\nStack:\n" ++ c.stack
    (Failure.plain (c.message ++ stack)).within ("transform " ++ path)

/-- The result an answer holds. -/
def Reply.result (r : Reply) : Except CallFlaw TransformResult :=
  match r.error with
  | some c => .error (.refused c)
  | none => .ok ⟨r.code, r.map⟩

/-- The status of an answer that holds a result. -/
def okStatus : Int := 200

/-- The result of an answer with a status and a body. -/
def readAnswer (status : Int) (body : Text) : Except CallFlaw TransformResult :=
  if status ≠ okStatus then .error (.status status)
  else
    match Reply.read? body with
    | some r => r.result
    | none => .error .malformed

/-- A transpiler that asks a service. What the service sees is well-formed text. -/
def transformer (service : TransformRequest → Reply) : Transformer := fun r =>
  (service { r with source := Text.toValid r.source }).result.mapError (·.failure r.path)

end Transpiler

end MiniProgram
