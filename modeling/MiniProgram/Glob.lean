import MiniProgram.Text.Utf8

/-!
Glob patterns over slash-separated paths.

`*` stands for any run of code points without a slash, `?` for one code point that is no slash,
`[a-z]` and `[^a-z]` for one code point of a class, `\{a,b\}` for one of several patterns, and `**`
as a whole segment for any number of segments, none included. A backslash takes the next code point
literally.

A pattern is checked by `isValid` before it is used. Matching works on code points and tries the
shortest run for each star first; it stops with `none` at a class or a choice that does not close.
-/

namespace MiniProgram

namespace Glob

/-! ### Code points with a meaning -/

@[match_pattern] abbrev slash : Nat := 47
@[match_pattern] abbrev star : Nat := 42
@[match_pattern] abbrev question : Nat := 63
@[match_pattern] abbrev openBracket : Nat := 91
@[match_pattern] abbrev closeBracket : Nat := 93
@[match_pattern] abbrev openBrace : Nat := 123
@[match_pattern] abbrev closeBrace : Nat := 125
@[match_pattern] abbrev comma : Nat := 44
@[match_pattern] abbrev hyphen : Nat := 45
@[match_pattern] abbrev bang : Nat := 33
@[match_pattern] abbrev caret : Nat := 94
@[match_pattern] abbrev backslash : Nat := 92

/-! ### Checking a pattern -/

/-- Where the check of a pattern stands: between items, or inside a character class whose first
member is still to come or already seen. -/
inductive Place where
  | outside
  | classStart
  | classBody
deriving DecidableEq, Repr

/-- Whether the rest of a pattern is well formed with `depth` choices open. -/
def isValidFrom : Place → (depth : Nat) → List Nat → Bool
  | .outside, depth, [] => depth == 0
  | .classStart, _, [] => false
  | .classBody, _, [] => false
  | .outside, _, [backslash] => false
  | .outside, depth, backslash :: _ :: rest => isValidFrom .outside depth rest
  | .outside, depth, openBracket :: caret :: rest => isValidFrom .classStart depth rest
  | .outside, depth, openBracket :: bang :: rest => isValidFrom .classStart depth rest
  | .outside, depth, openBracket :: rest => isValidFrom .classStart depth rest
  | .outside, depth, openBrace :: rest => isValidFrom .outside (depth + 1) rest
  | .outside, 0, closeBrace :: _ => false
  | .outside, depth + 1, closeBrace :: rest => isValidFrom .outside depth rest
  | .outside, depth, _ :: rest => isValidFrom .outside depth rest
  | .classStart, _, closeBracket :: _ => false
  | .classStart, _, [backslash] => false
  | .classStart, depth, backslash :: _ :: rest => isValidFrom .classBody depth rest
  | .classStart, depth, _ :: rest => isValidFrom .classBody depth rest
  | .classBody, depth, closeBracket :: rest => isValidFrom .outside depth rest
  | .classBody, _, [backslash] => false
  | .classBody, depth, backslash :: _ :: rest => isValidFrom .classBody depth rest
  | .classBody, depth, _ :: rest => isValidFrom .classBody depth rest

/-- Whether a pattern is well formed: its classes close and are not empty, its choices balance, and
it does not end in a backslash. -/
def isValid (pattern : Text) : Bool := isValidFrom .outside 0 (Text.runes pattern)

/-! ### Classes -/

/-- What follows the bracket that closes a class. -/
def afterClass? : List Nat → Option (List Nat)
  | [] => none
  | closeBracket :: rest => some rest
  | backslash :: _ :: rest => afterClass? rest
  | _ :: rest => afterClass? rest

/-- Whether `c` is a member of the class whose remaining members are given, and the pattern from
where the search stopped. `last` is the member before, if a range can start there. -/
def classHas (c : Nat) : (last : Option Nat) → List Nat → Bool × List Nat
  | _, [] => (false, [])
  | _, closeBracket :: rest => (false, closeBracket :: rest)
  | some _, hyphen :: closeBracket :: rest => (hyphen = c, closeBracket :: rest)
  | some low, hyphen :: backslash :: high :: rest =>
    if low ≤ c ∧ c ≤ high then (true, rest) else classHas c none rest
  | some low, hyphen :: high :: rest =>
    if low ≤ c ∧ c ≤ high then (true, rest) else classHas c none rest
  | _, backslash :: m :: rest => if m = c then (true, rest) else classHas c (some m) rest
  | _, m :: rest => if m = c then (true, rest) else classHas c (some m) rest

/-- What a class says of one code point. -/
inductive ClassAnswer where
  /-- It holds the code point, and the pattern goes on after it. -/
  | inside (rest : List Nat)
  /-- It does not, and the search stopped here. -/
  | outside (stopped : List Nat)
  /-- It is empty or does not close. -/
  | malformed
deriving DecidableEq, Repr

/-- Matches one code point against a class, given the pattern after its opening bracket. -/
def matchClass (c : Nat) (body : List Nat) : ClassAnswer :=
  let negated := body.head? = some caret ∨ body.head? = some bang
  let members := if negated then body.drop 1 else body
  if members = [] ∨ members.head? = some closeBracket then .malformed
  else
    let (found, stopped) := classHas c none members
    if found = negated then (if stopped = [] then .malformed else .outside stopped)
    else
      match afterClass? stopped with
      | some rest => .inside rest
      | none => .malformed

/-! ### Choices -/

/-- Puts a code point in front of the first alternative. -/
def extendFirst (c : Nat) : List (List Nat) × List Nat → List (List Nat) × List Nat
  | (alt :: alts, tail) => ((c :: alt) :: alts, tail)
  | ([], tail) => ([[c]], tail)

/-- The alternatives of a choice, up to the brace that closes it, and what follows that brace.
`depth` counts the choices open inside it, `escaped` says that a backslash stands before. -/
def alternatives? : (depth : Nat) → (escaped : Bool) → List Nat →
    Option (List (List Nat) × List Nat)
  | _, _, [] => none
  | depth, true, c :: rest => (alternatives? depth false rest).map (extendFirst c)
  | 0, false, closeBrace :: rest => some ([[]], rest)
  | depth, false, c :: rest =>
    if c = backslash then (alternatives? depth true rest).map (extendFirst c)
    else if c = comma ∧ depth = 0 then
      (alternatives? 0 false rest).map fun (alts, tail) => ([] :: alts, tail)
    else
      let inner := if c = openBrace then depth + 1 else if c = closeBrace then depth - 1 else depth
      (alternatives? inner false rest).map (extendFirst c)

/-- The first definite answer: the first alternative that matches or is malformed decides. -/
def firstMatch (attempts : List (Option Bool)) : Option Bool :=
  (attempts.find? (· ≠ some false)).getD (some false)

/-! ### Matching -/

/-- Whether the rest of a pattern matches the empty text. `fuel` bounds the choices opened. -/
def matchesEmpty : (fuel : Nat) → List Nat → Option Bool
  | 0, _ => none
  | fuel + 1, pattern =>
    if pattern = [] ∨ pattern = [star] ∨ pattern = [star, star] ∨ pattern = [slash, star, star]
      ∨ pattern = [star, star, slash] ∨ pattern = [slash, star, star, slash] then some true
    else
      match pattern with
      | openBrace :: body =>
        match alternatives? 0 false body with
        | none => none
        | some (alts, tail) => firstMatch (alts.map fun alt => matchesEmpty fuel (alt ++ tail))
      | _ => if isValidFrom .outside 0 pattern then some false else none

/-- Where a match is taken up again after a mismatch. Each place is the pattern from there on and
the name it was last tried on: `run` after the last star, `deep` after the last `**` segment. -/
structure Retry where
  run : Option (List Nat × List Nat)
  deep : Option (List Nat × List Nat)
deriving DecidableEq, Repr

namespace Retry

/-- One more segment for the last `**`. -/
def descend? (r : Retry) : Option (Bool × List Nat × List Nat × Retry) :=
  match r.deep with
  | none => none
  | some (pattern, name) =>
    match name.dropWhile (· ≠ slash) with
    | [] => none
    | _ :: below => some (true, pattern, below, { r with deep := some (pattern, below) })

/-- The next place to try: a longer run of the last star, which stays within its segment, or else
one more segment for the last `**`. With it, whether a segment starts there. -/
def next? (r : Retry) : Option (Bool × List Nat × List Nat × Retry) :=
  match r.run with
  | some (pattern, c :: name) =>
    if c = slash then r.descend?
    else some (false, pattern, name, { r with run := some (pattern, name) })
  | _ => r.descend?

/-- Replaces the pattern that is left, also where the places to try again run into it. -/
def settle (r : Retry) (old new : List Nat) : Retry :=
  let replace (place : List Nat × List Nat) : List Nat × List Nat :=
    (place.1.take (place.1.length - old.length) ++ new, place.2)
  ⟨r.run.map replace, r.deep.map replace⟩

end Retry

/-- Whether a pattern matches a whole name; `start` says that a segment starts here. A choice is
settled where the match first reaches it, one alternative after the other. `fuel` bounds the
steps. -/
def matchFrom : (fuel : Nat) → (start : Bool) → (pattern name : List Nat) → Retry → Option Bool
  | 0, _, _, _, _ => none
  | _ + 1, _, pattern, [], _ => matchesEmpty (pattern.length + 1) pattern
  | fuel + 1, start, pattern, c :: name, retry =>
    let mismatch (stuck : List Nat) : Option Bool :=
      match retry.next? with
      | some (start, pattern, name, retry) => matchFrom fuel start pattern name retry
      | none => if isValidFrom .outside 0 stuck then some false else none
    let run (rest : List Nat) : Option Bool :=
      matchFrom fuel false rest (c :: name) { retry with run := some (rest, c :: name) }
    match pattern with
    | [] => mismatch []
    | star :: star :: rest =>
      match start, rest with
      | true, [] => some true
      | true, slash :: rest => matchFrom fuel true rest (c :: name) ⟨none, some (rest, c :: name)⟩
      | _, rest => run rest
    | star :: rest => run rest
    | question :: rest =>
      if c = slash then mismatch pattern else matchFrom fuel false rest name retry
    | openBracket :: body =>
      match matchClass c body with
      | .inside rest => matchFrom fuel false rest name retry
      | .outside stopped => mismatch stopped
      | .malformed => none
    | openBrace :: body =>
      match alternatives? 0 false body with
      | none => none
      | some (alts, tail) =>
        firstMatch (alts.map fun alt =>
          matchFrom fuel true (alt ++ tail) (c :: name) (retry.settle pattern (alt ++ tail)))
    | [backslash] => none
    | backslash :: m :: rest =>
      if m = c then matchFrom fuel (m = slash) rest name retry else mismatch pattern
    | m :: rest => if m = c then matchFrom fuel (m = slash) rest name retry else mismatch pattern

/-- Whether a path matches a pattern. A malformed pattern matches nothing. Between two places to
try again a match takes at most one step for each code point of the pattern; a `**` is tried again
at most once for each code point of the path, and a star so often for each of these. -/
def accepts (pattern path : Text) : Bool :=
  let ps := Text.runes pattern
  let cs := Text.runes path
  let fuel := (ps.length + 2) * (cs.length + 2) * (cs.length + 2)
  matchFrom fuel true ps cs ⟨none, none⟩ = some true

/-! ### Looking names up -/

/-- Whether a byte of a pattern stands for more than itself. -/
def isSpecial (b : UInt8) : Bool := ("*?[\x7b\\" : Text).contains b

/-- The directories a pattern begins with before a segment in which anything has a meaning, each
with its slash. Names are looked up there, by these bytes as they are. -/
def lead (pattern : Text) : Text :=
  ((pattern.takeWhile (!isSpecial ·)).reverse.dropWhile (· ≠ Byte.slash)).reverse

end Glob

end MiniProgram
