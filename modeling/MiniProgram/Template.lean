import MiniProgram.Template.Expr

/-!
Templates: text with actions between double brackets, as the files of a scaffold are written.

An action prints the value of its expression, or chooses between two parts of the template. A
template that cannot be read, or an action that has no value, refuses the whole.
-/

namespace MiniProgram

/-- How a choice reads its condition: `with` also makes it the current value of the part chosen. -/
inductive Template.Choice where
  | whether
  | within
deriving DecidableEq, Repr

/-- A part of a template. -/
inductive Template where
  | text (t : Text)
  | emit (e : Template.Expr)
  | choose (c : Template.Choice) (condition : Template.Expr) (yes no : List Template)
deriving Repr

namespace Template

/-- What an action does in the structure of a template. -/
inductive Action where
  | emit (e : Expr)
  | start (c : Choice) (condition : Expr)
  | otherwise
  | otherwiseIf (c : Choice) (condition : Expr)
  | finish

/-- The tokens without leading spaces. -/
def skipSpaces (ts : List Token) : List Token := ts.dropWhile (· = .space)

/-- The choice a keyword begins. -/
def Choice.ofName? (w : Text) : Option Choice :=
  if w = ("if" : Text) then some .whether
  else if w = ("with" : Text) then some .within
  else none

/-- Reads an action. -/
def Action.ofTokens? (ts : List Token) : Option Action :=
  match skipSpaces ts with
  | .word w :: rest =>
    if w = ("end" : Text) then if skipSpaces rest = [] then some .finish else none
    else if w = ("else" : Text) then
      match skipSpaces rest with
      | [] => some .otherwise
      | .word w :: rest => do
        return .otherwiseIf (← Choice.ofName? w) (← Expr.ofTokens? rest)
      | _ => none
    else
      match Choice.ofName? w with
      | some c => (Expr.ofTokens? rest).map (.start c)
      | none => (Expr.ofTokens? (.word w :: rest)).map .emit
  | ts => (Expr.ofTokens? ts).map .emit

/-- The end of a sequence of parts: the end of the template, or of the part of a choice. -/
inductive Ending where
  | whole
  | finish
  | otherwise
  | otherwiseIf (c : Choice) (condition : Expr)

mutual

/-- Reads parts up to their end, on the given fuel. -/
def parts? : (fuel : Nat) → List Piece → Option (List Template × Ending × List Piece)
  | 0, _ => none
  | _ + 1, [] => some ([], .whole, [])
  | fuel + 1, .text t :: ps => do
    let (parts, ending, ps) ← parts? fuel ps
    return (.text t :: parts, ending, ps)
  | fuel + 1, .action ts :: ps => do
    match ← Action.ofTokens? ts with
    | .emit e =>
      let (parts, ending, ps) ← parts? fuel ps
      return (.emit e :: parts, ending, ps)
    | .start c e =>
      let (choice, ps) ← choice? fuel c e ps
      let (parts, ending, ps) ← parts? fuel ps
      return (choice :: parts, ending, ps)
    | .finish => return ([], .finish, ps)
    | .otherwise => return ([], .otherwise, ps)
    | .otherwiseIf c e => return ([], .otherwiseIf c e, ps)

/-- Reads a choice up to its end; a further condition after `else` shares the end with it. -/
def choice? : (fuel : Nat) → Choice → Expr → List Piece → Option (Template × List Piece)
  | 0, _, _, _ => none
  | fuel + 1, c, e, ps => do
    match ← parts? fuel ps with
    | (_, .whole, _) => none
    | (yes, .finish, ps) => return (.choose c e yes [], ps)
    | (yes, .otherwise, ps) =>
      match ← parts? fuel ps with
      | (no, .finish, ps) => return (.choose c e yes no, ps)
      | _ => none
    | (yes, .otherwiseIf c' e', ps) =>
      if c' = c then
        let (no, ps) ← choice? fuel c' e' ps
        return (.choose c e yes [no], ps)
      else none

end

/-- The parts of a template; `none` if it cannot be read. -/
def parse? (t : Text) : Option (List Template) := do
  let ps ← pieces t
  match ← parts? (2 * ps.length + 2) ps with
  | (parts, .whole, _) => some parts
  | _ => none

mutual

/-- A part of a template filled with data; `none` if an expression has no value. -/
def fill? (data : Fields) (here : Value) : Template → Option Text
  | text t => some t
  | emit e => (e.eval? data here).map Value.render
  | choose c condition yes no => do
    let v ← condition.eval? data here
    if v.isTrue then fillAll? data (if c = .within then v else here) yes
    else fillAll? data here no

/-- Parts of a template filled with data. -/
def fillAll? (data : Fields) (here : Value) : List Template → Option Text
  | [] => some []
  | p :: ps => do
    let t ← fill? data here p
    let rest ← fillAll? data here ps
    return t ++ rest

end

/-- A template filled with data. -/
def render? (data : Fields) (t : Text) : Option Text := do
  fillAll? data (.record data) (← parse? t)

end Template

end MiniProgram
