import MiniProgram.Console.Format

/-!
The pieces of a template: text to be copied, and actions between double brackets.

A hyphen inside the brackets, set off by a space, trims the white space on its side of the action.
An action that is a comment leaves nothing behind. The content of an action is a list of tokens, in
which spaces count because they set arguments apart.
-/

namespace MiniProgram

namespace Template

/-- A token of an action. -/
inductive Token where
  | dot
  | root
  | field (name : Text)
  | word (name : Text)
  | text (value : Text)
  | number (value : Int)
  | pipe
  | opening
  | closing
  | space
deriving DecidableEq, Repr

/-- A piece of a template. -/
inductive Piece where
  | text (value : Text)
  | action (tokens : List Token)
deriving DecidableEq, Repr

/-- White space of a template. -/
def isSpace (b : UInt8) : Bool :=
  b == Byte.space || b == Byte.tab || b == Byte.carriageReturn || b == Byte.newline

/-! ### Tokens -/

/-- The bytes that end an operand. -/
def operandEnds : List UInt8 :=
  [Byte.dot, Byte.comma, Byte.pipe, Byte.colon, Byte.openParen, Byte.closeParen]

/-- Whether an operand may end in front of a text. -/
def endsOperand : Text → Bool
  | [] => true
  | b :: t => isSpace b || operandEnds.elem b || Text.startsWith (b :: t) "]]"

/-- The bytes of the name in front of a text. -/
def nameOf (t : Text) : Text := t.takeWhile fun b => Byte.isWord b || 128 ≤ b

/-- The body of a quoted constant and what follows its quote. -/
def quotedBody? : Text → Option (Text × Text)
  | [] => none
  | Byte.doubleQuote :: t => some ([], t)
  | Byte.newline :: _ => none
  | Byte.backslash :: e :: t =>
    let escaped? : Option UInt8 :=
      if e = 'n'.toNat.toUInt8 then some Byte.newline
      else if e = 't'.toNat.toUInt8 then some Byte.tab
      else if e = 'r'.toNat.toUInt8 then some Byte.carriageReturn
      else if e = Byte.backslash || e = Byte.doubleQuote then some e
      else none
    match escaped?, quotedBody? t with
    | some b, some (body, rest) => some (b :: body, rest)
    | _, _ => none
  | b :: t => (quotedBody? t).map fun (body, rest) => (b :: body, rest)

/-- The whole number in front of a text, with an optional sign. -/
def number? (t : Text) : Option (Int × Text) :=
  let (negative, digits) := match t with
    | Byte.hyphen :: t => (true, t)
    | Byte.plus :: t => (false, t)
    | t => (false, t)
  let body := digits.takeWhile Byte.isDigit
  let rest := digits.drop body.length
  match Text.toNat? body with
  | some n =>
    if endsOperand rest && !Text.startsWith rest "." then some (if negative then -n else n, rest)
    else none
  | none => none

/-- The token in front of a non-empty text, and what follows it. -/
def token? (t : Text) : Option (Token × Text) :=
  match t with
  | [] => none
  | b :: rest =>
    if isSpace b then some (.space, rest.dropWhile isSpace)
    else if b = Byte.pipe then some (.pipe, rest)
    else if b = Byte.openParen then some (.opening, rest)
    else if b = Byte.closeParen then some (.closing, rest)
    else if b = Byte.doubleQuote then (quotedBody? rest).map fun (s, rest) => (.text s, rest)
    else if b = Byte.backquote then
      (Text.cut? [Byte.backquote] rest).map fun (s, rest) => (.text s, rest)
    else if b = Byte.dollar then if endsOperand rest then some (.root, rest) else none
    else if b = Byte.dot then
      let name := nameOf rest
      let after := rest.drop name.length
      if name.head?.any Byte.isDigit || !endsOperand after then none
      else some (if name = [] then .dot else .field name, after)
    else if b = Byte.plus || b = Byte.hyphen || Byte.isDigit b then
      (number? t).map fun (n, rest) => (.number n, rest)
    else
      let name := nameOf t
      let after := t.drop name.length
      if name = [] || !endsOperand after then none else some (.word name, after)

/-- Whether white space is trimmed after an action, and what follows its brackets. -/
def closing? (t : Text) : Option (Bool × Text) :=
  match t with
  | b :: Byte.hyphen :: rest =>
    if isSpace b then
      match Text.after? "]]" rest with
      | some rest => some (true, rest)
      | none => none
    else none
  | _ => (Text.after? "]]" t).map fun rest => (false, rest)

/-- The text after the end of an action. -/
def afterClosing (trim : Bool) (t : Text) : Text := if trim then t.dropWhile isSpace else t

/-- The tokens of an action and the text after it, on the given fuel. -/
def tokens? : (fuel : Nat) → Text → Option (List Token × Text)
  | 0, _ => none
  | fuel + 1, t =>
    match closing? t with
    | some (trim, rest) => some ([], afterClosing trim rest)
    | none => do
      let (token, rest) ← token? t
      let (more, rest) ← tokens? fuel rest
      return (token :: more, rest)

/-! ### Pieces -/

/-- What follows the opening brackets: whether the white space before them is trimmed, and the
action. -/
def opening (t : Text) : Bool × Text :=
  match t with
  | Byte.hyphen :: b :: rest => if isSpace b then (true, rest) else (false, t)
  | _ => (false, t)

/-- A text without the white space at its end. -/
def trimSpace (t : Text) : Text := (t.reverse.dropWhile isSpace).reverse

/-- The pieces of a template, on the given fuel. -/
def pieces? : (fuel : Nat) → Text → Option (List Piece)
  | 0, _ => none
  | fuel + 1, t =>
    match Text.cut? "[[" t with
    | none => some [.text t]
    | some (before, inner) => do
      let (trim, inner) := opening inner
      let lead := Piece.text (if trim then trimSpace before else before)
      match Text.after? "/*" inner with
      | some comment =>
        let (_, rest) ← Text.cut? "*/" comment
        let (trim, rest) ← closing? rest
        return lead :: (← pieces? fuel (afterClosing trim rest))
      | none =>
        let (tokens, rest) ← tokens? (inner.length + 1) inner
        return lead :: .action tokens :: (← pieces? fuel rest)

/-- The pieces of a template; `none` if an action cannot be read. -/
def pieces (t : Text) : Option (List Piece) := pieces? (t.length + 1) t

end Template

end MiniProgram
