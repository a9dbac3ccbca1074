import MiniProgram.Json.Basic

/-!
Reading JSON: `Json.parse?` accepts exactly one value with blanks around it, `Json.parseFirst?` the
value a text begins with. Values may nest to a given depth.

A string may hold any byte but control characters and the quote; ill-formed UTF-8 in it and escapes
of unpaired surrogates are read as U+FFFD.
-/

namespace MiniProgram

namespace Json

/-! ### Strings -/

/-- The body of a string and what follows its closing quote, the text starting after the opening
one. -/
def stringExtent? : (escaped : Bool) → Text → Option (Text × Text)
  | _, [] => none
  | true, b :: t =>
    if b < 32 then none else (stringExtent? false t).map fun (body, rest) => (b :: body, rest)
  | false, b :: t =>
    if b = Byte.doubleQuote then some ([], t)
    else if b < 32 then none
    else (stringExtent? (b == Byte.backslash) t).map fun (body, rest) => (b :: body, rest)

/-- The byte a one-letter escape stands for. -/
def simpleEscape? (e : UInt8) : Option UInt8 :=
  if e = Byte.doubleQuote || e = Byte.backslash || e = Byte.slash then some e
  else if e = 98 then some 8
  else if e = 102 then some 12
  else if e = 110 then some 10
  else if e = 114 then some 13
  else if e = 116 then some 9
  else none

/-- The number four hexadecimal digits stand for. -/
def unit? (a b c d : UInt8) : Option Nat := do
  let a ← Byte.hexValue? a
  let b ← Byte.hexValue? b
  let c ← Byte.hexValue? c
  let d ← Byte.hexValue? d
  return ((a * 16 + b) * 16 + c) * 16 + d

/-- The code point of a surrogate pair. -/
def surrogatePair? (high low : Nat) : Option Nat :=
  if 0xD800 ≤ high && high < 0xDC00 && 0xDC00 ≤ low && low < 0xE000 then
    some (0x10000 + (high - 0xD800) * 0x400 + (low - 0xDC00))
  else none

/-- The second half of a surrogate pair: an escape at the head of a text that completes `high`. -/
def completes? (high : Nat) : Text → Option Nat
  | x :: y :: a :: b :: c :: d :: _ =>
    if x = Byte.backslash && y = 117 then (unit? a b c d).bind (surrogatePair? high) else none
  | _ => none

/-- The text the body of a string stands for; the next `skip` bytes belong to an escape already
read. -/
def unescapeFrom? : (skip : Nat) → Text → Option Text
  | _, [] => some []
  | skip + 1, _ :: t => unescapeFrom? skip t
  | 0, b :: t =>
    if b ≠ Byte.backslash then (unescapeFrom? 0 t).map (b :: ·)
    else
      match t with
      | 117 :: w :: x :: y :: z :: rest =>
        match unit? w x y z with
        | none => none
        | some u =>
          match completes? u rest with
          | some c => (unescapeFrom? 11 t).map (Rune.encode c ++ ·)
          | none => (unescapeFrom? 5 t).map (Rune.encode u ++ ·)
      | e :: _ =>
        match simpleEscape? e with
        | some c => (unescapeFrom? 1 t).map (c :: ·)
        | none => none
      | [] => none

/-- The text of a string and what follows it, the text starting after the opening quote. -/
def readString? (t : Text) : Option (Text × Text) := do
  let (body, rest) ← stringExtent? false t
  return (← unescapeFrom? 0 (Text.toValid body), rest)

/-! ### Numbers -/

/-- The digits at the head of a text, at least one, and the rest. -/
def digits? (t : Text) : Option (Text × Text) :=
  if t.head?.any Byte.isDigit then some (t.takeWhile Byte.isDigit, t.dropWhile Byte.isDigit)
  else none

/-- The number at the head of a text and the rest. -/
def readNumber? (t : Text) : Option (Text × Text) := do
  let unsigned := Text.trimStart t "-"
  let (whole, rest) ← digits? unsigned
  let rest := if whole.head? = some Byte.zero then unsigned.drop 1 else rest
  let rest ← match rest with
    | Byte.dot :: r => (digits? r).map (·.2)
    | _ => some rest
  let rest ← match rest with
    | b :: r =>
      if Byte.toLower b = 101 then
        let r := match r with
          | s :: r' => if s = Byte.plus || s = Byte.hyphen then r' else r
          | [] => r
        (digits? r).map (·.2)
      else some rest
    | [] => some rest
  return (t.take (t.length - rest.length), rest)

/-! ### Values -/

/-- A blank between tokens. -/
def isBlank (b : UInt8) : Bool :=
  b == Byte.space || b == Byte.tab || b == Byte.newline || b == Byte.carriageReturn

/-- The text without the blanks in front. -/
def skipBlank (t : Text) : Text := t.dropWhile isBlank

/-- A value that is neither array nor object, and the rest. -/
def readScalar? (t : Text) : Option (Json × Text) :=
  match t with
  | Byte.doubleQuote :: r => (readString? r).map fun (s, rest) => (.string s, rest)
  | _ =>
    ((Text.after? "null" t).map (Json.null, ·)).or
      (((Text.after? "true" t).map (Json.bool true, ·)).or
        (((Text.after? "false" t).map (Json.bool false, ·)).or
          ((readNumber? t).map fun (n, rest) => (.number n, rest))))

mutual

/-- The value at the head of a text, nested at most `depth` deep, and the rest. -/
def readValue? : (fuel depth : Nat) → Text → Option (Json × Text)
  | 0, _, _ => none
  | fuel + 1, depth, t =>
    match skipBlank t with
    | Byte.openBracket :: r =>
      if depth = 0 then none
      else
        match skipBlank r with
        | Byte.closeBracket :: rest => some (.array [], rest)
        | r => (readElements? fuel (depth - 1) r).map fun (vs, rest) => (.array vs, rest)
    | Byte.openBrace :: r =>
      if depth = 0 then none
      else
        match skipBlank r with
        | Byte.closeBrace :: rest => some (.object [], rest)
        | r => (readMembers? fuel (depth - 1) r).map fun (ms, rest) => (.object ms, rest)
    | t => readScalar? t

/-- The elements of an array up to its closing bracket, and the rest. -/
def readElements? : (fuel depth : Nat) → Text → Option (List Json × Text)
  | 0, _, _ => none
  | fuel + 1, depth, t => do
    let (v, rest) ← readValue? fuel depth t
    match skipBlank rest with
    | Byte.comma :: r => (readElements? fuel depth r).map fun (vs, rest) => (v :: vs, rest)
    | Byte.closeBracket :: rest => some ([v], rest)
    | _ => none

/-- The members of an object up to its closing brace, and the rest. -/
def readMembers? : (fuel depth : Nat) → Text → Option (List (Text × Json) × Text)
  | 0, _, _ => none
  | fuel + 1, depth, t => do
    let (k, rest) ← match skipBlank t with
      | Byte.doubleQuote :: r => readString? r
      | _ => none
    let rest ← Text.after? ":" (skipBlank rest)
    let (v, rest) ← readValue? fuel depth rest
    match skipBlank rest with
    | Byte.comma :: r => (readMembers? fuel depth r).map fun (ms, rest) => ((k, v) :: ms, rest)
    | Byte.closeBrace :: rest => some ([(k, v)], rest)
    | _ => none

end

/-- The deepest nesting of a document that is read as data. -/
def nestingLimit : Nat := 10000

/-- The value a text begins with, nested at most `depth` deep, and the rest. -/
def parseFirst? (depth : Nat) (t : Text) : Option (Json × Text) :=
  readValue? (2 * t.length + 2) depth t

/-- The value of a text that holds one value, nested at most `depth` deep, and blanks. -/
def parse? (depth : Nat) (t : Text) : Option Json :=
  match parseFirst? depth t with
  | some (v, rest) => if skipBlank rest = [] then some v else none
  | none => none

/-- Whether a text is a JSON document, nested however deep. -/
def isValid (t : Text) : Bool := (parse? t.length t).isSome

end Json

end MiniProgram
