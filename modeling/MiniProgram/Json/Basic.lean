import MiniProgram.Text.Quoted

/-!
JSON values and their compact text.

Strings are written so that the text can stand inside a script or a page: beside quotes, backslashes
and control characters, the characters `<`, `>`, `&`, U+2028 and U+2029 are escaped, and a byte that
is no well-formed UTF-8 is replaced by U+FFFD.
-/

namespace MiniProgram

/-- A JSON value. A number is kept as it is spelled, and an object keeps its members in order. -/
inductive Json where
  | null
  | bool (value : Bool)
  | number (numeral : Text)
  | string (text : Text)
  | array (elements : List Json)
  | object (members : List (Text × Json))
deriving Repr

namespace Json

/-- How one code point is written inside a string. -/
def escape (c : Nat) : Text :=
  if c = 34 || c = 92 then [Byte.backslash, c.toUInt8]
  else if c = 8 then "\\b"
  else if c = 12 then "\\f"
  else if c = 10 then "\\n"
  else if c = 13 then "\\r"
  else if c = 9 then "\\t"
  else if c < 32 || c = 60 || c = 62 || c = 38 || c = 0x2028 || c = 0x2029 then
    "\\u" ++ Text.hexDigits 4 c
  else Rune.encode c

/-- A string with its quotes. -/
def renderString (t : Text) : Text :=
  Byte.doubleQuote :: (Text.runes t).flatMap escape ++ [Byte.doubleQuote]

mutual

/-- The compact text of a value. -/
def render : Json → Text
  | null => "null"
  | bool b => if b then "true" else "false"
  | number n => n
  | string t => renderString t
  | array elements => "[" ++ renderElements elements ++ "]"
  | object members => "\x7b" ++ renderMembers members ++ "\x7d"

/-- The elements of an array, separated by commas. -/
def renderElements : List Json → Text
  | [] => []
  | [v] => render v
  | v :: vs => render v ++ "," ++ renderElements vs

/-- The members of an object, separated by commas. -/
def renderMembers : List (Text × Json) → Text
  | [] => []
  | [(k, v)] => renderString k ++ ":" ++ render v
  | (k, v) :: ms => renderString k ++ ":" ++ render v ++ "," ++ renderMembers ms

end

/-- A code point under simple case folding, as far as it folds to an ASCII letter. -/
def foldRune (c : Nat) : Nat :=
  if 65 ≤ c && c ≤ 90 then c + 32
  else if c = 0x17F then 115
  else if c = 0x212A then 107
  else c

/-- Whether the key of a member names a field, letter case aside. -/
def names (key field : Text) : Bool := (Text.runes key).map foldRune = Text.runes field

end Json

end MiniProgram
