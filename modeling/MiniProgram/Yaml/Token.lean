import MiniProgram.Yaml.Cursor

/-!
The tokens of a YAML document.
-/

namespace MiniProgram

namespace Yaml

/-- How a scalar is spelled. -/
inductive Style where
  | plain
  | singleQuoted
  | doubleQuoted
  | literal
  | folded
deriving DecidableEq, Repr

/-- What a token is. Block collections are marked by their start and a common end, which the lexer
derives from the indentation. -/
inductive TokenKind where
  | streamEnd
  | versionDirective (major minor : Nat)
  | tagDirective (handle lead : Text)
  | documentStart
  | documentEnd
  | blockSequenceStart
  | blockMappingStart
  | blockEnd
  | flowSequenceStart
  | flowSequenceEnd
  | flowMappingStart
  | flowMappingEnd
  | blockEntry
  | flowEntry
  | key
  | value
  | reference (name : Text)
  | anchor (name : Text)
  | tag (handle suffix : Text)
  | scalar (style : Style) (text : Text)
deriving DecidableEq, Repr

/-- A token and the line it starts on, counted from one. -/
structure Token where
  kind : TokenKind
  line : Nat
deriving DecidableEq, Repr

end Yaml

end MiniProgram
