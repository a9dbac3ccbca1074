import MiniProgram.Text.Quoted

/-!
Format strings: messages with directives that are replaced by arguments.

A directive is `%`, then flags, an argument index in brackets, a width, a precision and a verb. The
verbs `s` and `v` write an argument as it is, `q` in quotes, `x` and `X` in hexadecimal, and `T`
names its type. What is wrong with a directive or with the number of arguments is written into the
text.
-/

namespace MiniProgram

namespace Format

/-- The flags, width and precision of a directive. -/
structure Spec where
  plus : Bool
  minus : Bool
  sharp : Bool
  space : Bool
  zero : Bool
  width : Option Nat
  precision : Option Nat
deriving DecidableEq, Repr

/-- The directive without flags. -/
def Spec.plain : Spec := ⟨false, false, false, false, false, none, none⟩

/-! ### Arguments -/

/-- A text padded to the width of a directive. -/
def pad (s : Spec) (length : Nat) (t : Text) : Text :=
  let missing := s.width.getD 0 - length
  if s.minus then t ++ List.replicate missing Byte.space
  else List.replicate missing (if s.zero then Byte.zero else Byte.space) ++ t

/-- The first code points of a text, as many as the precision allows. -/
def truncate (s : Spec) (t : Text) : Text :=
  match s.precision with
  | some n => ((Text.runeSpans t).take n).flatMap (·.2)
  | none => t

/-- A text padded by the number of its code points. -/
def padRunes (s : Spec) (t : Text) : Text := pad s (Text.runes t).length t

/-- How one code point is written in quotes when only ASCII is allowed. -/
def quoteSpanAscii (span : Option Nat × Text) : Text :=
  match span.1 with
  | some c =>
    if c < 128 then Text.quoteSpan span
    else if c < 0x10000 then "\\u" ++ Text.hexDigits 4 c
    else "\\U" ++ Text.hexDigits 8 c
  | none => Text.quoteSpan span

/-- Whether a text can stand between backquotes as it is. -/
def canBackquote (t : Text) : Bool :=
  (Text.runeSpans t).all fun (c, _) =>
    c.any fun c => c ≠ 0xFEFF && (c = 9 || 32 ≤ c) && c ≠ 96 && c ≠ 127

/-- An argument in quotes. -/
def quoted (s : Spec) (t : Text) : Text :=
  let t := truncate s t
  if s.sharp && canBackquote t then padRunes s (Byte.backquote :: t ++ [Byte.backquote])
  else if s.plus then
    padRunes s (Byte.doubleQuote :: (Text.runeSpans t).flatMap quoteSpanAscii ++ [Byte.doubleQuote])
  else padRunes s (Text.quote t)

/-- An argument in hexadecimal, two digits for each byte. -/
def hexadecimal (s : Spec) (upper : Bool) (t : Text) : Text :=
  let bytes := match s.precision with
    | some n => t.take n
    | none => t
  let digits (b : UInt8) : Text :=
    (Text.hexDigits 2 b.toNat).map fun d => if upper && Byte.isLower d then d - 32 else d
  let lead : Text := if s.sharp then (if upper then "0X" else "0x") else []
  let body : Text :=
    if bytes = [] then []
    else if s.space then Text.join " " (bytes.map fun b => lead ++ digits b)
    else lead ++ bytes.flatMap digits
  pad s body.length body

/-- An argument under a verb. -/
def argument (s : Spec) (verb : Nat) (t : Text) : Text :=
  let plain := padRunes s (truncate s t)
  if verb = 's'.toNat then plain
  else if verb = 'v'.toNat then
    if s.sharp then quoted { s with sharp := false, plus := false } t else plain
  else if verb = 'q'.toNat then quoted s t
  else if verb = 'x'.toNat then hexadecimal s false t
  else if verb = 'X'.toNat then hexadecimal s true t
  else if verb = 'T'.toNat then padRunes s (truncate s "string")
  else "%!" ++ Rune.encode verb ++ "(string=" ++ plain ++ ")"

/-! ### Directives -/

/-- What reading a directive keeps track of: the rest of the format, the next argument, whether an
index has just been read, whether the indices so far were good, whether one was given at all, and
what is written already. -/
structure Progress where
  rest : Text
  next : Nat
  indexed : Bool
  good : Bool
  reordered : Bool
  written : Text
deriving DecidableEq, Repr

/-- The flags in front of a text. -/
def flags : Spec → Text → Spec × Text
  | s, [] => (s, [])
  | s, b :: t =>
    if b = Byte.hash then flags { s with sharp := true } t
    else if b = Byte.zero then flags { s with zero := true } t
    else if b = Byte.plus then flags { s with plus := true } t
    else if b = Byte.hyphen then flags { s with minus := true } t
    else if b = Byte.space then flags { s with space := true } t
    else (s, b :: t)

/-- The greatest number that a further digit may follow. -/
def numberLimit : Nat := 1000000

/-- Reads on a number; one that is too long takes the whole rest with it. -/
def numberFrom : Option Nat → Text → Option Nat × Text
  | n, [] => (n, [])
  | n, b :: t =>
    if !Byte.isDigit b then (n, b :: t)
    else if n.any (numberLimit < ·) then (none, [])
    else numberFrom (some (10 * n.getD 0 + (b.toNat - 48))) t

/-- The number in front of a text. -/
def number (t : Text) : Option Nat × Text := numberFrom none t

/-- Reads an argument index, if one follows. -/
def readIndex (count : Nat) (p : Progress) : Progress :=
  match p.rest with
  | Byte.openBracket :: t =>
    let p := { p with reordered := true }
    let bad (rest : Text) : Progress := { p with rest := rest, indexed := false, good := false }
    match Text.cut? "]" t with
    | none => bad t
    | some (inner, rest) =>
      match number inner with
      | (some n, []) =>
        if 1 ≤ n && n ≤ count then { p with rest := rest, next := n - 1, indexed := true }
        else { p with rest := rest, indexed := true, good := false }
      | _ => bad rest
  | _ => { p with indexed := false }

/-- Reads a width, if one follows. No argument is a number, so a starred width is always bad. -/
def readWidth (count : Nat) (s : Spec) (p : Progress) : Spec × Progress :=
  match p.rest with
  | Byte.star :: t =>
    (s, { p with
      rest := t, next := if p.next < count then p.next + 1 else p.next, indexed := false,
      written := p.written ++ "%!(BADWIDTH)" })
  | t =>
    let (width, rest) := number t
    ({ s with width := width },
      { p with rest := rest, good := p.good && !(p.indexed && width.isSome) })

/-- Reads a precision, if one follows. -/
def readPrecision (count : Nat) (s : Spec) (p : Progress) : Spec × Progress :=
  match p.rest with
  | Byte.dot :: t =>
    let p := readIndex count { p with rest := t, good := p.good && !p.indexed }
    match p.rest with
    | Byte.star :: t =>
      (s, { p with
        rest := t, next := if p.next < count then p.next + 1 else p.next, indexed := false,
        written := p.written ++ "%!(BADPREC)" })
    | t =>
      let (precision, rest) := number t
      ({ s with precision := some (precision.getD 0) }, { p with rest := rest })
  | _ => (s, p)

/-- Writes the argument under the verb that ends a directive. -/
def readVerb (args : List Text) (s : Spec) (p : Progress) : Progress :=
  match p.rest with
  | [] => { p with written := p.written ++ "%!(NOVERB)" }
  | b :: t =>
    let (verb, more) := (Rune.read? b t).getD (Rune.replacement, 0)
    let p := { p with rest := t.drop more }
    let complaint (what : Text) : Progress :=
      { p with written := p.written ++ "%!" ++ Rune.encode verb ++ what }
    if verb = '%'.toNat then { p with written := p.written ++ "%" }
    else if !p.good then complaint "(BADINDEX)"
    else
      match args[p.next]? with
      | none => complaint "(MISSING)"
      | some a => { p with next := p.next + 1, written := p.written ++ argument s verb a }

/-- Reads the directive that follows a percent sign. -/
def directive (args : List Text) (p : Progress) : Progress :=
  let (s, rest) := flags .plain p.rest
  let p := readIndex args.length { p with rest := rest, good := true }
  let (s, p) := readWidth args.length s p
  let (s, p) := readPrecision args.length s p
  let p := if p.indexed then p else readIndex args.length p
  readVerb args { s with zero := s.zero && !s.minus } p

/-- Formats the rest of a text on the given fuel. -/
def formatFrom (args : List Text) : (fuel : Nat) → Progress → Progress
  | 0, p => p
  | fuel + 1, p =>
    match p.rest with
    | [] => p
    | b :: t =>
      if b = Byte.percent then formatFrom args fuel (directive args { p with rest := t })
      else formatFrom args fuel { p with rest := t, written := p.written ++ [b] }

/-- What is written about arguments that no directive took. -/
def extra (args : List Text) : Text :=
  if args = [] then []
  else "%!(EXTRA " ++ Text.join ", " (args.map fun a => "string=" ++ a) ++ ")"

/-- A format with its directives replaced by arguments. -/
def format (t : Text) (args : List Text) : Text :=
  let p := formatFrom args t.length ⟨t, 0, false, true, false, []⟩
  p.written ++ if p.reordered then [] else extra (args.drop p.next)

end Format

end MiniProgram
