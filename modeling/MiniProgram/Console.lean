import MiniProgram.Console.Format

/-!
The console: what a command prints, on its two streams.

A transcript keeps the printed pieces in the order in which they were printed; each stream is the
concatenation of its own pieces.
-/

namespace MiniProgram

/-- The streams a command prints to. -/
inductive Channel where
  | out
  | err
deriving DecidableEq, Repr

/-- A piece of text printed to a stream. -/
structure Printed where
  channel : Channel
  text : Text
deriving DecidableEq, Repr

/-- What a command prints, in order. -/
abbrev Transcript := List Printed

namespace Transcript

/-- What reaches one stream. -/
def on (c : Channel) (t : Transcript) : Text := (t.filter (·.channel = c)).flatMap (·.text)

/-- What reaches a reader of both streams. -/
def all (t : Transcript) : Text := t.flatMap (·.text)

end Transcript

namespace Console

/-- Text on the stream of results. -/
def out (t : Text) : Transcript := [⟨.out, t⟩]

/-- Text on the stream of complaints. -/
def err (t : Text) : Transcript := [⟨.err, t⟩]

/-- The mark of success. -/
def check : Text := "✓"

/-- The mark of failure. -/
def cross : Text := "✗"

/-- The mark of a warning. -/
def warningSign : Text := "⚠"

/-- A headline, with an empty line after it. -/
def header (message : Text) : Transcript := out (message ++ "\n\n")

/-- A formatted line. -/
def step (format : Text) (args : List Text) : Transcript :=
  out (Format.format ("  " ++ format ++ "\n") args)

/-- A line that reports success. -/
def successLine (message : Text) : Transcript := out ("  " ++ check ++ " " ++ message ++ "\n")

/-- A line that warns. -/
def warningLine (message : Text) : Transcript := out ("  " ++ warningSign ++ " " ++ message ++ "\n")

/-- A line that reports a failure. -/
def errorLine (message : Text) : Transcript := err ("  " ++ cross ++ " " ++ message ++ "\n")

/-- A formatted line that reports success. -/
def success (format : Text) (args : List Text) : Transcript :=
  successLine (Format.format format args)

/-- A formatted line that warns. -/
def warning (format : Text) (args : List Text) : Transcript :=
  warningLine (Format.format format args)

/-- A formatted line that reports a failure. -/
def error (format : Text) (args : List Text) : Transcript := errorLine (Format.format format args)

/-- The name of a file. -/
def file (path : Text) : Transcript := out ("    " ++ path ++ "\n")

/-- A closing line. -/
def done (message : Text) : Transcript := out (message ++ "\n")

end Console

end MiniProgram
