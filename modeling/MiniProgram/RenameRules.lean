import MiniProgram.Text.Basic

/-!
Rename rules: how the path of a source becomes the path of its output.

A rule either strips a leading prefix or swaps an extension for another. `apply` strips prefixes as
long as one matches and then swaps at most one extension, the longest that matches. A rule list is
checked by `flaw?` before it is used.
-/

namespace MiniProgram

/-- One rename rule. Exactly one of `strip` and `fromExt` is non-empty in a well-formed rule: the
leading text to strip, or the extension to swap for `toExt`. -/
structure RenameRule where
  strip : Text
  fromExt : Text
  toExt : Text
deriving DecidableEq, Repr

/-- An ordered list of rename rules. -/
abbrev RenameRules := List RenameRule

namespace RenameRule

/-- The rule that strips a leading text. -/
def stripping (lead : Text) : RenameRule := ⟨lead, [], []⟩

/-- The rule that swaps one extension for another. -/
def swapping (fromExt toExt : Text) : RenameRule := ⟨[], fromExt, toExt⟩

/-- The rule with its fields named, as it is shown to the user. -/
def render (r : RenameRule) : Text :=
  "\x7bPrefix:" ++ r.strip ++ " FromExt:" ++ r.fromExt ++ " ToExt:" ++ r.toExt ++ "\x7d"

/-- Whether the rule swaps the extension of a path. -/
def swaps (r : RenameRule) (p : Text) : Bool := r.fromExt ≠ [] && Text.endsWith p r.fromExt

end RenameRule

namespace RenameRules

/-- The leading text stripped from paths by default. -/
def sandboxPrefix : Text := "demo/src/"

/-- The extension swaps every project uses. -/
def standardSwaps : RenameRules := [
  .swapping ".less" ".js",
  .swapping ".css" ".acss",
  .swapping ".ts" ".js",
  .swapping ".tsx" ".js"]

/-- The rules that strip each non-empty lead in order and then swap source extensions. -/
def standard (leads : List Text) : RenameRules :=
  (leads.filter (· ≠ [])).map .stripping ++ standardSwaps

/-! ### Checking a rule list -/

/-- Why a rule list is refused. -/
inductive Flaw where
  /-- A rule strips and swaps, or does neither. -/
  | ambiguous (rule : RenameRule)
  /-- A swap has nothing to put in place. -/
  | noTarget (fromExt : Text)
  /-- What one swap writes, another swaps again. -/
  | rematched (toExt fromExt : Text)
deriving DecidableEq, Repr

/-- The wording of a flaw. -/
def Flaw.message : Flaw → Text
  | .ambiguous r => "rename rule must set exactly one of prefix or extension: " ++ r.render
  | .noTarget e => "rename rule for " ++ e ++ " has no target extension"
  | .rematched t e => "rename target " ++ t ++ " is matched again by rule for " ++ e

/-- What is wrong with a rule on its own. -/
def ruleFlaw? (r : RenameRule) : Option Flaw :=
  if (r.strip = []) = (r.fromExt = []) then some (.ambiguous r)
  else if r.fromExt ≠ [] ∧ r.toExt = [] then some (.noTarget r.fromExt)
  else none

/-- The first swap of the list that matches again what `r` writes. -/
def rematch? (rs : RenameRules) (r : RenameRule) : Option Flaw :=
  if r.toExt = [] then none
  else (rs.find? fun other => other.swaps r.toExt).map fun other => .rematched r.toExt other.fromExt

/-- The first reason to refuse a rule list: a malformed rule, else a swap whose output another rule
swaps again. -/
def flaw? (rs : RenameRules) : Option Flaw :=
  (rs.findSome? ruleFlaw?).or (rs.findSome? (rematch? rs))

/-! ### Applying the rules -/

/-- A path after one pass over the stripping rules, in order. -/
def stripOnce (rs : RenameRules) (p : Text) : Text :=
  rs.foldl (fun p r => if r.strip = [] then p else Text.trimStart p r.strip) p

/-- A path with leading texts stripped until no rule strips any more. -/
def stripAll (rs : RenameRules) (p : Text) : Text :=
  if (stripOnce rs p).length < p.length then stripAll rs (stripOnce rs p) else p
termination_by p.length

/-- The swap that applies to a path: of those that match, the first with the longest extension. -/
def swapFor? (rs : RenameRules) (p : Text) : Option RenameRule :=
  rs.foldl (fun best r =>
    if r.swaps p then
      match best with
      | none => some r
      | some b => if b.fromExt.length < r.fromExt.length then some r else some b
    else best) none

/-- The output path of a source path. -/
def apply (rs : RenameRules) (p : Text) : Text :=
  if p = [] then []
  else
    let q := stripAll rs p
    match swapFor? rs q with
    | some r => Text.trimEnd q r.fromExt ++ r.toExt
    | none => q

/-- Whether a file with the extension `e` is given another one. -/
def changesExt (rs : RenameRules) (e : Text) : Bool :=
  (swapFor? rs ("x" ++ e)).any fun r => r.fromExt = e

end RenameRules

end MiniProgram
