/-!
Text as a sequence of bytes.

Sources, stylesheets and paths reach the builder as bytes that need not be valid UTF-8, and every
position, length and order in this library counts bytes. A text is therefore the plain list of its
bytes, so that the lemmas of `List` speak about it directly; a string literal stands for its UTF-8
bytes.

The module names the bytes the scanners look at (`Byte`), the classes of bytes they run over, and
the few operations on whole texts the rest of the library shares: affixes, cutting at a separator,
and the byte-wise order.
-/

namespace MiniProgram

/-- A text is the list of its bytes. -/
abbrev Text := List UInt8

/-! ### Bytes -/

namespace Byte

@[match_pattern] abbrev tab : UInt8 := 9
@[match_pattern] abbrev newline : UInt8 := 10
@[match_pattern] abbrev formFeed : UInt8 := 12
@[match_pattern] abbrev carriageReturn : UInt8 := 13
@[match_pattern] abbrev space : UInt8 := 32
@[match_pattern] abbrev bang : UInt8 := 33
@[match_pattern] abbrev doubleQuote : UInt8 := 34
@[match_pattern] abbrev hash : UInt8 := 35
@[match_pattern] abbrev dollar : UInt8 := 36
@[match_pattern] abbrev percent : UInt8 := 37
@[match_pattern] abbrev ampersand : UInt8 := 38
@[match_pattern] abbrev singleQuote : UInt8 := 39
@[match_pattern] abbrev openParen : UInt8 := 40
@[match_pattern] abbrev closeParen : UInt8 := 41
@[match_pattern] abbrev star : UInt8 := 42
@[match_pattern] abbrev plus : UInt8 := 43
@[match_pattern] abbrev comma : UInt8 := 44
@[match_pattern] abbrev hyphen : UInt8 := 45
@[match_pattern] abbrev dot : UInt8 := 46
@[match_pattern] abbrev slash : UInt8 := 47
@[match_pattern] abbrev zero : UInt8 := 48
@[match_pattern] abbrev colon : UInt8 := 58
@[match_pattern] abbrev semicolon : UInt8 := 59
@[match_pattern] abbrev less : UInt8 := 60
@[match_pattern] abbrev equals : UInt8 := 61
@[match_pattern] abbrev greater : UInt8 := 62
@[match_pattern] abbrev question : UInt8 := 63
@[match_pattern] abbrev openBracket : UInt8 := 91
@[match_pattern] abbrev backslash : UInt8 := 92
@[match_pattern] abbrev closeBracket : UInt8 := 93
@[match_pattern] abbrev caret : UInt8 := 94
@[match_pattern] abbrev underscore : UInt8 := 95
@[match_pattern] abbrev backquote : UInt8 := 96
@[match_pattern] abbrev openBrace : UInt8 := 123
@[match_pattern] abbrev pipe : UInt8 := 124
@[match_pattern] abbrev closeBrace : UInt8 := 125

/-- A decimal digit. -/
def isDigit (b : UInt8) : Bool := 48 ≤ b && b ≤ 57

/-- An upper-case ASCII letter. -/
def isUpper (b : UInt8) : Bool := 65 ≤ b && b ≤ 90

/-- A lower-case ASCII letter. -/
def isLower (b : UInt8) : Bool := 97 ≤ b && b ≤ 122

/-- An ASCII letter. -/
def isLetter (b : UInt8) : Bool := isUpper b || isLower b

/-- A byte of a word: a letter, a digit or an underscore. -/
def isWord (b : UInt8) : Bool := isLetter b || isDigit b || b == underscore

/-- A byte of a script identifier: a word byte or a dollar sign. -/
def isIdent (b : UInt8) : Bool := isWord b || b == dollar

/-- White space inside a line of code: tab, newline, form feed, carriage return or space. -/
def isSpace (b : UInt8) : Bool :=
  b == tab || b == newline || b == formFeed || b == carriageReturn || b == space

/-- A straight quote, single or double. -/
def isQuote (b : UInt8) : Bool := b == singleQuote || b == doubleQuote

/-- The lower-case form of an ASCII letter, any other byte itself. -/
def toLower (b : UInt8) : UInt8 := if isUpper b then b + 32 else b

/-- The value of a hexadecimal digit. -/
def hexValue? (b : UInt8) : Option Nat :=
  if isDigit b then some (b.toNat - 48)
  else if 97 ≤ b && b ≤ 102 then some (b.toNat - 87)
  else if 65 ≤ b && b ≤ 70 then some (b.toNat - 55)
  else none

/-- The digit that stands for a value below 36: `0` to `9`, then `a` to `z`. -/
def ofDigit (d : Nat) : UInt8 := if d < 10 then (48 + d).toUInt8 else (87 + d).toUInt8

end Byte

namespace Text

/-! ### Literals -/

/-- The UTF-8 bytes of a string. -/
def ofString (s : String) : Text := s.toUTF8.data.toList

instance : Coe String Text := ⟨ofString⟩

/-! ### Affixes -/

/-- Whether `t` begins with `lead`. -/
def startsWith (t lead : Text) : Bool := lead.isPrefixOf t

/-- Whether `t` ends with `tail`. -/
def endsWith (t tail : Text) : Bool := tail.isSuffixOf t

/-- What follows `lead` in `t`, if `t` begins with it. -/
def after? : (lead t : Text) → Option Text
  | [], t => some t
  | _ :: _, [] => none
  | a :: lead, b :: t => if a = b then after? lead t else none

/-- `t` without the leading `lead`; `t` itself if it does not begin with it. -/
def trimStart (t lead : Text) : Text := (after? lead t).getD t

/-- `t` without the trailing `tail`; `t` itself if it does not end with it. -/
def trimEnd (t tail : Text) : Text :=
  if endsWith t tail then t.take (t.length - tail.length) else t

/-! ### Cutting -/

/-- The pieces of `t` between the separators; never empty, and joining them with the separator
gives `t` back. -/
def split (sep : UInt8) : Text → List Text
  | [] => [[]]
  | b :: t =>
    if b = sep then [] :: split sep t
    else match split sep t with
      | [] => [[b]]
      | piece :: rest => (b :: piece) :: rest

/-- The pieces joined by the separator. -/
def join (sep : Text) (pieces : List Text) : Text := sep.intercalate pieces

/-- The text before and after the first occurrence of `needle`. -/
def cut? (needle : Text) : Text → Option (Text × Text)
  | [] => if needle = [] then some ([], []) else none
  | b :: t =>
    match after? needle (b :: t) with
    | some rest => some ([], rest)
    | none => (cut? needle t).map fun (before, rest) => (b :: before, rest)

/-- Whether `needle` occurs in `t`. -/
def includes (t needle : Text) : Bool := (cut? needle t).isSome

/-- Whether some byte of `t` is one of `bytes`. -/
def includesAny (t bytes : Text) : Bool := t.any fun b => bytes.elem b

/-! ### Order -/

/-- The byte-wise lexicographic order. -/
def le (a b : Text) : Bool := decide (a ≤ b)

/-- The texts in ascending byte order. -/
def sort (texts : List Text) : List Text := texts.mergeSort le

/-- The texts in ascending byte order, each once. -/
def sortUnique (texts : List Text) : List Text := sort texts.eraseDups

/-! ### Numerals -/

/-- The digits of `n` in the given base, least significant first, on the given fuel. -/
def digitsOn (base : Nat) : Nat → Nat → Text
  | 0, _ => []
  | fuel + 1, n =>
    if n < base then [Byte.ofDigit n] else Byte.ofDigit (n % base) :: digitsOn base fuel (n / base)

/-- The numeral of `n` in a base from 2 to 36. -/
def ofNatBase (base n : Nat) : Text := (digitsOn base (n.log2 + 1) n).reverse

/-- The decimal numeral of `n`. -/
def ofNat (n : Nat) : Text := ofNatBase 10 n

/-- The decimal numeral of `i`, with a minus sign when negative. -/
def ofInt (i : Int) : Text := if i < 0 then Byte.hyphen :: ofNat i.natAbs else ofNat i.natAbs

/-- The number a non-empty run of decimal digits stands for. -/
def toNat? (t : Text) : Option Nat :=
  if t ≠ [] && t.all Byte.isDigit then
    some (t.foldl (fun n b => 10 * n + (b.toNat - 48)) 0)
  else none

end Text

end MiniProgram
