import MiniProgram.Json.Reader
import MiniProgram.Number.Decimal

/-!
Looking up one member of the outermost object of a text, without checking the rest of the text.

The look-up goes from the first opening brace from key to value and passes over whatever stands
between them, so it also finds members in a text that is no valid JSON. The first member with the
key counts.
-/

namespace MiniProgram

namespace Json

/-- What a member was found to hold, spelled as in the text unless it is a string. -/
inductive Found where
  | string (text : Text)
  | number (raw : Text)
  | literal (raw : Text)
  | nested (raw : Text)
deriving DecidableEq, Repr

namespace Lenient

/-! ### Extents of tokens -/

/-- The body of a string and what follows its closing quote, the text starting after the opening
one. -/
def stringExtent? : (escaped : Bool) → Text → Option (Text × Text)
  | _, [] => none
  | true, b :: t => (stringExtent? false t).map fun (body, rest) => (b :: body, rest)
  | false, b :: t =>
    if b = Byte.doubleQuote then some ([], t)
    else (stringExtent? (b == Byte.backslash) t).map fun (body, rest) => (b :: body, rest)

/-- Where the scan over a nested value stands: outside strings, in one, or after a backslash in
one. -/
inductive Nesting where
  | plain
  | literal
  | escaped
deriving DecidableEq, Repr

/-- The number of bytes up to the bracket that closes the outermost of `depth` open ones, all of
them if none does. Kinds of brackets are not told apart. -/
def nestedLength : Nesting → (depth : Nat) → Text → Nat
  | _, _, [] => 0
  | .literal, depth, b :: t =>
    nestedLength (if b = Byte.doubleQuote then .plain else if b = Byte.backslash then .escaped
      else .literal) depth t + 1
  | .escaped, depth, _ :: t => nestedLength .literal depth t + 1
  | .plain, depth, b :: t =>
    if b = Byte.doubleQuote then nestedLength .literal depth t + 1
    else if b = Byte.openBrace || b = Byte.openBracket || b = Byte.openParen then
      nestedLength .plain (depth + 1) t + 1
    else if b = Byte.closeBrace || b = Byte.closeBracket || b = Byte.closeParen then
      if depth ≤ 1 then 1 else nestedLength .plain (depth - 1) t + 1
    else nestedLength .plain depth t + 1

/-- Whether a byte ends a number. -/
def endsNumber (b : UInt8) : Bool :=
  b ≤ Byte.space || b == Byte.comma || b == Byte.closeBracket || b == Byte.closeBrace

/-! ### Unescaping -/

/-- The number four hexadecimal digits stand for, zero if they are none. -/
def unit (a b c d : UInt8) : Nat := (unit? a b c d).getD 0

/-- The second half of a surrogate pair, whatever it is, if an escape stands at the head of a
text. -/
def secondUnit? : Text → Option Nat
  | x :: y :: a :: b :: c :: d :: _ =>
    if x = Byte.backslash && y = 117 then some (unit a b c d) else none
  | _ => none

/-- The text the body of a string stands for, as far as it can be read; the next `skip` bytes belong
to an escape already read. -/
def unescapeFrom : (skip : Nat) → Text → Text
  | _, [] => []
  | skip + 1, _ :: t => unescapeFrom skip t
  | 0, b :: t =>
    if b < 32 then []
    else if b ≠ Byte.backslash then b :: unescapeFrom 0 t
    else
      match t with
      | 117 :: w :: x :: y :: z :: rest =>
        let u := unit w x y z
        if 0xD800 ≤ u && u < 0xE000 then
          match secondUnit? rest with
          | some v =>
            Rune.encode ((surrogatePair? u v).getD Rune.replacement) ++ unescapeFrom 11 t
          | none => Rune.encode u ++ unescapeFrom 5 t
        else Rune.encode u ++ unescapeFrom 5 t
      | e :: _ =>
        match simpleEscape? e with
        | some c => c :: unescapeFrom 1 t
        | none => []
      | [] => []

/-- The text the body of a string stands for. -/
def unescape (body : Text) : Text := if Byte.backslash ∈ body then unescapeFrom 0 body else body

/-! ### Members -/

/-- Whether a byte starts a value. -/
def startsValue (b : UInt8) : Bool :=
  Byte.isDigit b || Text.includesAny [b] "\"\x7b[ntf+-iIN"

/-- The value at the head of a text and the rest. -/
def value? : Text → Option (Found × Text)
  | [] => none
  | b :: t =>
    if b = Byte.doubleQuote then
      (stringExtent? false t).map fun (body, rest) => (.string (unescape body), rest)
    else if b = Byte.openBrace || b = Byte.openBracket then
      let n := nestedLength .plain 1 t
      some (.nested (b :: t.take n), t.drop n)
    else if b = 116 || b = 102 || (b = 110 && t.head?.all (· = 117)) then
      some (.literal (b :: t.takeWhile Byte.isLower), t.dropWhile Byte.isLower)
    else some (.number (b :: t.takeWhile (!endsNumber ·)), t.dropWhile (!endsNumber ·))

/-- The first member with the key, on the given fuel. -/
def memberFrom? : (fuel : Nat) → (key : Text) → Text → Option Found
  | 0, _, _ => none
  | fuel + 1, key, t =>
    match t.dropWhile fun b => b ≠ Byte.doubleQuote && b ≠ Byte.closeBrace with
    | Byte.doubleQuote :: t =>
      match stringExtent? false t with
      | some (name, rest) =>
        match value? (rest.dropWhile (!startsValue ·)) with
        | some (v, rest) => if unescape name = key then some v else memberFrom? fuel key rest
        | none => none
      | none => none
    | _ => none

end Lenient

/-- What the outermost object of a text holds under a key; nothing if an array comes first. -/
def lookup? (t key : Text) : Option Found :=
  match t.dropWhile fun b => b ≠ Byte.openBrace && b ≠ Byte.openBracket with
  | Byte.openBrace :: t => Lenient.memberFrom? (t.length + 1) key t
  | _ => none

/-- A found value as text: a number is written without an exponent unless it is a plain integer. -/
def Found.text : Found → Text
  | string t => t
  | literal raw =>
    if Text.startsWith raw "t" then "true" else if Text.startsWith raw "f" then "false" else []
  | nested raw => raw
  | number raw =>
    if (Text.trimStart raw "-").all Byte.isDigit then raw
    else
      match Binary64.read? raw with
      | .ok x => x.shortest
      | .error .outOfRange => (Binary64.infinity (Text.startsWith raw "-")).shortest
      | .error .malformed => "0"

end Json

end MiniProgram
