import MiniProgram.Text.Case

/-!
Casing of component props.

A portable prop is written in camel case; the native attribute it stands for is its kebab-case form,
and a handler `on<Event>` is bound as a marker followed by the event in lower case.
-/

namespace MiniProgram

namespace Casing

/-- Whether a hyphen goes before an upper-case letter, given its neighbours: after a lower-case
letter or a digit, and at the last letter of a run of capitals when a lower-case letter follows. -/
def breaksBefore (prev next : Option Nat) : Bool :=
  match prev with
  | none => false
  | some p =>
    Rune.isLower p || Rune.isDigit p || (Rune.isUpper p && next.any Rune.isLower)

/-- The kebab-case form of a sequence of code points that follows `prev`. -/
def kebabFrom : (prev : Option Nat) → List Nat → List Nat
  | _, [] => []
  | prev, c :: rest =>
    if Rune.isUpper c then
      if breaksBefore prev rest.head? then
        Byte.hyphen.toNat :: Rune.toLower c :: kebabFrom (some c) rest
      else Rune.toLower c :: kebabFrom (some c) rest
    else c :: kebabFrom (some c) rest

/-- The kebab-case form of a camel-case name. A run of capitals stays together, so `imageURL`
becomes `image-url`. -/
def kebab (name : Text) : Text := Text.ofRunes (kebabFrom none (Text.runes name))

/-- Whether a prop names an event handler: `on` followed by an upper-case letter. The byte after
`on` is taken as a code point of its own. -/
def isEventProp : Text → Bool
  | 111 :: 110 :: b :: _ => Rune.isUpper b.toNat
  | _ => false

/-- The attribute that binds the handler `on<Event>`: the marker, then the event in lower case. -/
def eventBinding (marker prop : Text) : Text := marker ++ Text.toLower (Text.trimStart prop "on")

/-- The native attribute of a prop by the default rules. -/
def native (marker prop : Text) : Text :=
  if isEventProp prop then eventBinding marker prop else kebab prop

end Casing

end MiniProgram
