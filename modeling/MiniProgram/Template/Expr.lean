import MiniProgram.Template.Token

/-!
The expressions of template actions and their values.

A pipeline hands the value of each command on as the last argument of the next. A command is an
operand, or the name of a function with its arguments. The data of a template are a name and a
platform.
-/

namespace MiniProgram

namespace Template

/-- The data a template is filled with. -/
structure Fields where
  name : Text
  platform : Text
deriving DecidableEq, Repr

/-- A value of an expression. -/
inductive Value where
  | text (t : Text)
  | number (n : Int)
  | flag (b : Bool)
  | record (d : Fields)
deriving DecidableEq, Repr

/-- The functions of templates. -/
inductive Function where
  | and
  | or
  | not
  | len
  | print
  | println
  | printf
  | html
  | eq
  | ne
  | lt
  | le
  | gt
  | ge
deriving DecidableEq, Repr

/-- An expression. -/
inductive Expr where
  | dot
  | root
  | const (v : Value)
  | field (e : Expr) (name : Text)
  | call (f : Function) (args : List Expr)
  /-- An operand that is given arguments though it is no function. -/
  | misapplied
deriving Repr

/-! ### Reading -/

/-- The function with a name. -/
def Function.ofName? (t : Text) : Option Function :=
  let table : List (Text × Function) := [
    ("and", .and), ("or", .or), ("not", .not), ("len", .len), ("print", .print),
    ("println", .println), ("printf", .printf), ("html", .html), ("eq", .eq), ("ne", .ne),
    ("lt", .lt), ("le", .le), ("gt", .gt), ("ge", .ge)]
  table.lookup t

/-- The constant a word stands for. -/
def constant? (word : Text) : Option Value :=
  if word = ("true" : Text) then some (.flag true)
  else if word = ("false" : Text) then some (.flag false)
  else none

/-- A command as it is read: what stands first and the arguments after it. -/
structure Command where
  head : Function ⊕ Expr
  args : List Expr

/-- The command applied to the value handed on to it, if there is one. -/
def Command.apply (c : Command) (last : Option Expr) : Expr :=
  let args := c.args ++ last.toList
  match c.head with
  | .inl f => .call f args
  | .inr e => if args.isEmpty then e else .misapplied

/-- Whether a command may take a value handed on to it. -/
def Command.takesValue (c : Command) : Bool :=
  match c.head with
  | .inl _ => true
  | .inr e =>
    match e with
    | .const _ | .dot => false
    | _ => true

/-- The fields that follow an operand without a space. -/
def chain : Expr → List Token → Expr × List Token
  | e, .field name :: ts => chain (.field e name) ts
  | e, ts => (e, ts)

/-- The commands joined into one expression. -/
def joinCommands : List Command → Option Expr
  | [] => none
  | c :: rest =>
    if rest.all Command.takesValue then
      some (rest.foldl (fun e c => c.apply (some e)) (c.apply none))
    else none

mutual

/-- The commands of a pipeline, and the tokens from the one that ends it on. -/
def commands? : (fuel : Nat) → List Token → Option (List Command × List Token)
  | 0, _ => none
  | fuel + 1, ts =>
    match ts with
    | [] => some ([], [])
    | .closing :: _ => some ([], ts)
    | .space :: ts => commands? fuel ts
    | _ => do
      let (c, ts) ← command? fuel ts
      let (more, ts) ← commands? fuel ts
      return (c :: more, ts)

/-- One command, and what follows it and its pipe. -/
def command? : (fuel : Nat) → List Token → Option (Command × List Token)
  | 0, _ => none
  | fuel + 1, ts => do
    let (head, ts) ← operand? fuel ts
    let (args, ts) ← args? fuel ts
    return (⟨head, args⟩, ts)

/-- The arguments after an operand. -/
def args? : (fuel : Nat) → List Token → Option (List Expr × List Token)
  | 0, _ => none
  | fuel + 1, ts =>
    match ts with
    | [] => some ([], [])
    | .closing :: _ => some ([], ts)
    | .pipe :: ts => some ([], ts)
    | .space :: ts =>
      match ts with
      | [] => some ([], [])
      | .closing :: _ => some ([], ts)
      | .pipe :: ts => some ([], ts)
      | _ => do
        let (a, ts) ← operand? fuel ts
        let a : Expr := match a with
          | .inl f => .call f []
          | .inr e => e
        let (more, ts) ← args? fuel ts
        return (a :: more, ts)
    | _ => none

/-- One operand with the fields that follow it. -/
def operand? : (fuel : Nat) → List Token → Option ((Function ⊕ Expr) × List Token)
  | 0, _ => none
  | fuel + 1, ts =>
    let chained (e : Expr) (ts : List Token) : (Function ⊕ Expr) × List Token :=
      let (e, ts) := chain e ts
      (.inr e, ts)
    match ts with
    | .dot :: ts => some (.inr .dot, ts)
    | .root :: ts => some (chained .root ts)
    | .field name :: ts => some (chained (.field .dot name) ts)
    | .text t :: ts => some (.inr (.const (.text t)), ts)
    | .number n :: ts => some (.inr (.const (.number n)), ts)
    | .word w :: ts =>
      match constant? w with
      | some v => some (.inr (.const v), ts)
      | none => (Function.ofName? w).map fun f => (.inl f, ts)
    | .opening :: ts =>
      match commands? fuel ts with
      | some (cs, .closing :: ts) => (joinCommands cs).map fun e => chained e ts
      | _ => none
    | _ => none

end

/-- The expression of an action. -/
def Expr.ofTokens? (ts : List Token) : Option Expr :=
  match commands? (2 * ts.length + 3) ts with
  | some (cs, []) => joinCommands cs
  | _ => none

/-! ### Evaluation -/

/-- A value as it is printed. -/
def Value.render : Value → Text
  | text t => t
  | number n => Text.ofInt n
  | flag b => if b then "true" else "false"
  | record d => "\x7b" ++ d.name ++ " " ++ d.platform ++ "\x7d"

/-- Whether a value counts as true. -/
def Value.isTrue : Value → Bool
  | text t => t ≠ []
  | number n => n ≠ 0
  | flag b => b
  | record _ => true

/-- Whether a value is text. -/
def Value.isText : Value → Bool
  | text _ => true
  | _ => false

/-- A field of a value. -/
def Value.field? : Value → Text → Option Value
  | record d, name =>
    if name = ("Name" : Text) then some (.text d.name)
    else if name = ("Platform" : Text) then some (.text d.platform)
    else none
  | _, _ => none

/-- Values side by side, with a space between two that are no text. -/
def printed : List Value → Text
  | [] => []
  | [v] => v.render
  | v :: w :: vs =>
    let gap : Text := if v.isText || w.isText then [] else " "
    v.render ++ gap ++ printed (w :: vs)

/-- One character in markup. -/
def escapeMarkup (b : UInt8) : Text :=
  if b = Byte.doubleQuote then "&#34;"
  else if b = Byte.singleQuote then "&#39;"
  else if b = Byte.ampersand then "&amp;"
  else if b = Byte.less then "&lt;"
  else if b = Byte.greater then "&gt;"
  else if b = 0 then Rune.encode Rune.replacement
  else [b]

/-- Whether two values are equal; only values of one kind can be compared. -/
def equal? : Value → Value → Option Bool
  | .text a, .text b => some (a = b)
  | .number a, .number b => some (a = b)
  | .flag a, .flag b => some (a = b)
  | .record a, .record b => some (a = b)
  | _, _ => none

/-- Whether a value is less than another; only texts and numbers are ordered. -/
def less? : Value → Value → Option Bool
  | .text a, .text b => some (a < b)
  | .number a, .number b => some (a < b)
  | _, _ => none

/-- The texts among values, if all of them are. -/
def texts? (vs : List Value) : Option (List Text) :=
  vs.mapM fun
    | .text t => some t
    | _ => none

/-- A function applied to the values of its arguments. -/
def Function.apply? (f : Function) (vs : List Value) : Option Value :=
  let flag (b : Option Bool) : Option Value := b.map .flag
  match f, vs with
  | and, v :: vs => some (vs.foldl (fun v w => if v.isTrue then w else v) v)
  | or, v :: vs => some (vs.foldl (fun v w => if v.isTrue then v else w) v)
  | not, [v] => some (.flag (!v.isTrue))
  | len, [.text t] => some (.number t.length)
  | print, vs => some (.text (printed vs))
  | println, vs => some (.text (Text.join " " (vs.map Value.render) ++ "\n"))
  | printf, .text t :: vs => (texts? vs).map fun args => .text (Format.format t args)
  | html, vs => some (.text ((printed vs).flatMap escapeMarkup))
  | eq, v :: w :: vs => flag (((w :: vs).mapM (equal? v)).map fun bs => bs.any id)
  | ne, [v, w] => flag ((equal? v w).map (!·))
  | lt, [v, w] => flag (less? v w)
  | le, [v, w] => flag ((less? w v).map (!·))
  | gt, [v, w] => flag (less? w v)
  | ge, [v, w] => flag ((less? v w).map (!·))
  | _, _ => none

mutual

/-- The value of an expression, given the data of the template and the current value. -/
def Expr.eval? (data : Fields) (here : Value) : Expr → Option Value
  | dot => some here
  | root => some (.record data)
  | const v => some v
  | field e name => (e.eval? data here).bind (·.field? name)
  | call f args => (Expr.evalAll? data here args).bind f.apply?
  | misapplied => none

/-- The values of expressions. -/
def Expr.evalAll? (data : Fields) (here : Value) : List Expr → Option (List Value)
  | [] => some []
  | e :: es => do
    let v ← e.eval? data here
    let vs ← Expr.evalAll? data here es
    return v :: vs

end

end Template

end MiniProgram
