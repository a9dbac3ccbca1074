import MiniProgram.Text.Basic

/-!
Comments and string literals of a script.

A small lexer runs over the bytes of a script and tells for each whether it is plain code, part of a
comment or part of a string literal. A literal ends at its closing quote, and one in straight quotes
also at the end of its line; a backslash takes the next byte with it. A comment or literal that is
not closed runs to the end of the text.

Main definitions: `maskComments` blanks out comments in place, so that every position in the masked
text is a position in the script, and `topLevelThis` looks for the keyword `this` outside every pair
of braces, on its own way over comments and literals.
-/

namespace MiniProgram

namespace Script

/-- What the lexer is inside of. The states `opening` and `closing` take the second byte of a
comment mark. -/
inductive Lexer where
  | code
  | opening (block : Bool)
  | line
  | block
  | closing
  | literal (quote : UInt8)
  | escaped (quote : UInt8)
deriving DecidableEq, Repr

/-- What a byte of a script belongs to. -/
inductive ByteClass where
  | plain
  | comment
  | literal
deriving DecidableEq, Repr

/-- A byte that opens a string literal. -/
def opensLiteral (b : UInt8) : Bool := Byte.isQuote b || b == Byte.backquote

/-- Whether a byte ends the literal opened by `quote`: the same quote, or the end of the line unless
the quote is a backquote. -/
def endsLiteral (quote b : UInt8) : Bool :=
  b == quote || (b == Byte.newline && quote != Byte.backquote)

/-- One step of the lexer over a byte, given the byte that follows: the state after it and the class
of the byte. -/
def Lexer.step (b : UInt8) (next : Option UInt8) : Lexer → Lexer × ByteClass
  | code =>
    if b = Byte.slash && next = some Byte.slash then (opening false, .comment)
    else if b = Byte.slash && next = some Byte.star then (opening true, .comment)
    else if opensLiteral b then (literal b, .literal)
    else (code, .plain)
  | opening isBlock => (if isBlock then block else line, .comment)
  | line => if b = Byte.newline then (code, .plain) else (line, .comment)
  | block => (if b = Byte.star && next = some Byte.slash then closing else block, .comment)
  | closing => (code, .comment)
  | literal q =>
    if b = Byte.backslash then (escaped q, .literal)
    else if endsLiteral q b then (code, .literal)
    else (literal q, .literal)
  | escaped q => (literal q, .literal)

/-- The bytes of a text with the class of each, from a given state on. -/
def classifyFrom : Lexer → Text → List (UInt8 × ByteClass)
  | _, [] => []
  | s, b :: t =>
    let (s', c) := s.step b t.head?
    (b, c) :: classifyFrom s' t

/-- The bytes of a script with the class of each. -/
def classify (code : Text) : List (UInt8 × ByteClass) := classifyFrom .code code

/-! ### Masking comments -/

/-- A byte after masking: a space in place of a comment byte that is no newline. -/
def maskByte : UInt8 × ByteClass → UInt8
  | (b, c) => if c = .comment ∧ b ≠ Byte.newline then Byte.space else b

/-- The script with every byte of a comment but newlines replaced by a space. -/
def maskComments (code : Text) : Text := (classify code).map maskByte

/-! ### Literals -/

/-- How many bytes after its opening quote a literal takes, its end included. -/
def literalLength (quote : UInt8) : (escaped : Bool) → Text → Nat
  | _, [] => 0
  | true, _ :: t => literalLength quote false t + 1
  | false, b :: t =>
    if b = Byte.backslash then literalLength quote true t + 1
    else if endsLiteral quote b then 1
    else literalLength quote false t + 1

/-- The position of the byte that ends the literal opened at position `i`: its closing quote, the
end of its line, or the last byte of the text. `none` if there is no byte at `i`. -/
def literalEnd? (code : Text) (i : Nat) : Option Nat :=
  match code.drop i with
  | [] => none
  | quote :: t => some (i + literalLength quote false t)

/-! ### The keyword `this` -/

/-- Whether `this` stands as a word at a position, given the byte before it. -/
def isThis (before : Option UInt8) (bytes : Text) : Bool :=
  !before.any Byte.isIdent &&
    match Text.after? "this" bytes with
    | some t => !t.head?.any Byte.isIdent
    | none => false

/-- How many bytes after its first slash a line comment takes, the end of its line included. -/
def lineLength (t : Text) : Nat := (t.takeWhile (· ≠ Byte.newline)).length + 1

/-- How many bytes after its first slash a block comment takes, if it is closed. -/
def blockLength? (t : Text) : Option Nat :=
  (Text.cut? "*/" (t.drop 1)).map fun (inside, _) => inside.length + 3

/-- Whether the keyword `this` occurs outside every pair of braces, `depth` of which are open, and
outside comments and literals, each of which is passed over at once: the next `skip` bytes belong to
one. A comment that is not closed hides all that follows. -/
def thisFrom : (depth skip : Nat) → (before : Option UInt8) → Text → Bool
  | _, _, _, [] => false
  | depth, skip + 1, _, b :: t => thisFrom depth skip (some b) t
  | depth, 0, before, b :: t =>
    if b = Byte.slash && t.head? = some Byte.slash then thisFrom depth (lineLength t) (some b) t
    else if b = Byte.slash && t.head? = some Byte.star then
      match blockLength? t with
      | some n => thisFrom depth n (some b) t
      | none => false
    else if opensLiteral b then thisFrom depth (literalLength b false t) (some b) t
    else if b = Byte.openBrace then thisFrom (depth + 1) 0 (some b) t
    else if b = Byte.closeBrace then thisFrom (depth - 1) 0 (some b) t
    else if depth = 0 && isThis before (b :: t) then true
    else thisFrom depth 0 (some b) t

/-- Whether the keyword `this` occurs outside braces, strings and comments. -/
def topLevelThis (code : Text) : Bool := thisFrom 0 0 none code

end Script

end MiniProgram
