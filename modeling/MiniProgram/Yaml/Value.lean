import MiniProgram.Number.Decimal
import MiniProgram.Yaml.Node

/-!
What a scalar stands for.

A quoted or block scalar is text. A plain one is null, a truth value, a number or a date if it is
spelled like one, and text otherwise; a tag may demand one of these, or text whatever the spelling.
-/

namespace MiniProgram

namespace Yaml

/-- The value of a scalar. -/
inductive Value where
  | null
  | bool (b : Bool)
  | int (i : Int)
  | float (x : Binary64)
  | date
  | text (t : Text)
deriving DecidableEq, Repr

/-! ### The standard tags -/

def nullTag : Text := "!!null"
def boolTag : Text := "!!bool"
def intTag : Text := "!!int"
def floatTag : Text := "!!float"
def dateTag : Text := "!!timestamp"
def textTag : Text := "!!str"
def binaryTag : Text := "!!binary"
def mergeTag : Text := "!!merge"
def sequenceTag : Text := "!!seq"
def mappingTag : Text := "!!map"

/-- The tag that says what a value is. -/
def Value.tag : Value → Text
  | null => nullTag
  | bool _ => boolTag
  | int _ => intTag
  | float _ => floatTag
  | date => dateTag
  | text _ => textTag

/-! ### Integers -/

/-- The value of some digits in a base, none if one of them is no digit of it. -/
def natInBase? (base : Nat) (t : Text) : Option Nat :=
  if t = [] then none
  else t.foldlM (fun n b => do
    let d ← Byte.hexValue? b
    if d < base then some (base * n + d) else none) 0

/-- A sign in front of a text, and the rest. -/
def takeSign (t : Text) : Bool × Text :=
  match t with
  | Byte.plus :: r => (false, r)
  | Byte.hyphen :: r => (true, r)
  | _ => (false, t)

/-- The first natural number beyond 64 bits with a sign. -/
def signedLimit : Nat := 9223372036854775808

/-- The first natural number beyond 64 bits without a sign. -/
def unsignedLimit : Nat := 18446744073709551616

/-- A signed integer in a base that fits 64 bits. -/
def intInBase? (base : Nat) (t : Text) : Option Int := do
  let (negative, digits) := takeSign t
  let n ← natInBase? base digits
  if negative then
    if n ≤ signedLimit then some (-n) else none
  else if n < signedLimit then some n else none

/-- The base and digits of a numeral by its lead: `0x`, `0o`, `0b`, or `0` for octal. -/
def baseOf (t : Text) : Nat × Text :=
  match t with
  | Byte.zero :: x :: rest =>
    if Byte.toLower x = 120 then (16, rest)
    else if Byte.toLower x = 111 then (8, rest)
    else if Byte.toLower x = 98 then (2, rest)
    else (8, x :: rest)
  | _ => (10, t)

/-- The integer a plain scalar stands for: signed within 64 bits, else unsigned within 64 bits. -/
def integer? (t : Text) : Option Int :=
  let (negative, unsigned) := takeSign t
  let (base, digits) := baseOf unsigned
  match natInBase? base digits with
  | some n =>
    if negative then if n ≤ signedLimit then some (-n) else none
    else if n < signedLimit || (unsigned = t && n < unsignedLimit) then some n
    else none
  | none => none

/-- An integer whose sign stands after the lead of its base, as in `0b-1`. -/
def innerSigned? (t : Text) : Option Int :=
  match t with
  | Byte.zero :: 98 :: rest => intInBase? 2 rest
  | Byte.zero :: 111 :: rest => intInBase? 8 rest
  | _ => none

/-! ### Floating-point numbers -/

/-- Whether a text is a decimal numeral with an optional fraction and exponent. -/
def isDecimal (t : Text) : Bool :=
  let (_, unsigned) := takeSign t
  let whole := unsigned.takeWhile Byte.isDigit
  let rest := unsigned.dropWhile Byte.isDigit
  let (part, rest) := match rest with
    | Byte.dot :: r => (r.takeWhile Byte.isDigit, r.dropWhile Byte.isDigit)
    | _ => ([], rest)
  (whole ≠ [] || part ≠ []) &&
    match rest with
    | [] => true
    | e :: r =>
      let (_, digits) := takeSign r
      Byte.toLower e = 101 && digits ≠ [] && digits.all Byte.isDigit

/-- The number a text stands for, if it is within range. -/
def float? (t : Text) : Option Binary64 := (Binary64.read? t).toOption

/-! ### Dates -/

/-- The number of days of a month. -/
def daysIn (year month : Nat) : Nat :=
  if month = 2 then
    if year % 4 = 0 && (year % 100 ≠ 0 || year % 400 = 0) then 29 else 28
  else if month = 4 || month = 6 || month = 9 || month = 11 then 30
  else 31

/-- One or two digits at the head of a text, and the rest. -/
def shortNumber? (t : Text) : Option (Nat × Text) :=
  let digits := (t.take 2).takeWhile Byte.isDigit
  (Text.toNat? digits).map fun n => (n, t.drop digits.length)

/-- The rest of a text after a fraction of a second, if there is one. -/
def skipFraction (t : Text) : Text :=
  match t with
  | m :: d :: rest =>
    if (m = Byte.dot || m = Byte.comma) && Byte.isDigit d then rest.dropWhile Byte.isDigit else t
  | _ => t

/-- Whether a text is the offset of a time zone: `Z`, or a sign, two digits, a colon and two digits.
-/
def isOffset (t : Text) : Bool :=
  t = ("Z" : Text) ||
    match t with
    | [s, a, b, c, d, e] =>
      (s = Byte.plus || s = Byte.hyphen) && c = Byte.colon && [a, b, d, e].all Byte.isDigit
        && (Text.toNat? [a, b]).any (· ≤ 24) && (Text.toNat? [d, e]).any (· < 60)
    | _ => false

/-- What follows a time of day at the head of a text. -/
def afterTime? (t : Text) : Option Text := do
  let (hour, t) ← shortNumber? t
  let (minute, t) ← shortNumber? (← Text.after? ":" t)
  let (second, t) ← shortNumber? (← Text.after? ":" t)
  if hour < 24 && minute < 60 && second < 60 then some (skipFraction t) else none

/-- Whether a text is a date, alone or with a time of day. -/
def isDate (t : Text) : Bool :=
  let year := t.takeWhile Byte.isDigit
  if year.length ≠ 4 then false
  else
    let parsed := do
      let (month, t) ← shortNumber? (← Text.after? "-" (t.drop 4))
      let (day, t) ← shortNumber? (← Text.after? "-" t)
      let year ← Text.toNat? year
      if 1 ≤ month && month ≤ 12 && 1 ≤ day && day ≤ daysIn year month then some t else none
    match parsed with
    | none => false
    | some [] => true
    | some (sep :: rest) =>
      match afterTime? rest with
      | none => false
      | some rest =>
        if sep = Byte.space then rest = []
        else (sep = 84 || sep = 116) && isOffset rest

/-! ### Plain scalars -/

/-- The words with a value of their own. -/
def words : List (Text × Value) :=
  (([("true", true), ("True", true), ("TRUE", true), ("false", false), ("False", false),
      ("FALSE", false)] : List (String × Bool)).map fun (w, b) => (Text.ofString w, .bool b))
  ++ (["", "~", "null", "Null", "NULL"].map fun w => (Text.ofString w, .null))
  ++ ([".nan", ".NaN", ".NAN"].map fun w => (Text.ofString w, .float .nan))
  ++ ([".inf", ".Inf", ".INF", "+.inf", "+.Inf", "+.INF"].map fun w =>
      (Text.ofString w, .float (.infinity false)))
  ++ (["-.inf", "-.Inf", "-.INF"].map fun w => (Text.ofString w, .float (.infinity true)))

/-- The number or date a text that starts with a digit or a sign stands for. A date is looked for
unless a tag demands something else. -/
def numeric? (dates : Bool) (t : Text) : Option Value :=
  let plain := t.filter (· ≠ Byte.underscore)
  if dates && isDate t then some .date
  else
    ((integer? plain).map Value.int).or
      ((if isDecimal plain then (float? plain).map Value.float else none).or
        ((innerSigned? plain).map Value.int))

/-- The value a plain scalar is spelled like; `dates` tells whether it may be a date. -/
def spelled (dates : Bool) (t : Text) : Value :=
  match words.lookup t with
  | some v => v
  | none =>
    match t.head? with
    | none => .null
    | some b =>
      let value :=
        if b = Byte.dot then (float? t).map Value.float
        else if Byte.isDigit b || b = Byte.plus || b = Byte.hyphen then numeric? dates t
        else none
      value.getD (.text t)

/-- The value of a scalar with a tag, empty if it has none: `none` if its spelling does not fit the
tag. A tag that is not a standard one demands nothing. -/
def resolve? (tag t : Text) : Option Value :=
  if tag = [] then some (spelled true t)
  else if tag = textTag then some (.text t)
  else if ([boolTag, intTag, floatTag, nullTag, dateTag] : List Text).contains tag then
    let v := spelled (tag = dateTag) t
    if v.tag = tag then some v
    else
      match v with
      | .int i => if tag = floatTag then some (.float (Binary64.ofInt i)) else none
      | _ => none
  else some (.text t)

namespace Node

/-- The tag of a node: the one written, else the one its spelling implies. -/
def tag : Node → Text
  | scalar h style t =>
    if h.tag ≠ [] && h.tag ≠ ("!" : Text) then h.tag
    else if style ≠ .plain then textTag
    else if t = ("<<" : Text) then mergeTag
    else (spelled true t).tag
  | sequence h _ => if h.tag ≠ [] && h.tag ≠ ("!" : Text) then h.tag else sequenceTag
  | mapping h _ => if h.tag ≠ [] && h.tag ≠ ("!" : Text) then h.tag else mappingTag
  | reference .. => []

/-- Whether a node is a scalar that stands for nothing. -/
def isNull (n : Node) : Bool := n.tag = nullTag

end Node

end Yaml

end MiniProgram
