import MiniProgram.Bundle
import MiniProgram.FileSystem
import MiniProgram.Text.Quoted

/-!
Writing a bundle below the output directory: each module, its source map beside it, then the assets
of the modules and the emitted files.
-/

namespace MiniProgram

namespace Output

/-- The comment that names the source map of a script, on a line of its own after the content. -/
def withMapComment (content mapName : Text) : Text :=
  let lineEnd : Text := if content = [] || Text.endsWith content "\n" then [] else "\n"
  content ++ lineEnd ++ "//# sourceMappingURL=" ++ mapName ++ "\n"

/-- The files of a module: itself, and its source map if it has one. -/
def moduleFiles (m : Module) : List Asset :=
  if m.sourceMap = [] then [⟨m.path, m.content⟩]
  else
    [⟨m.path, withMapComment m.content (Path.base m.path ++ ".map")⟩,
      ⟨m.path ++ ".map", m.sourceMap⟩]

/-- The files of a bundle, in the order in which they are written. -/
def files (b : Bundle) : List Asset :=
  b.modules.flatMap moduleFiles ++ b.modules.flatMap (·.assets) ++ b.emitted

/-- What writing came to: the paths written, below the output directory, and the failure that ended
it if there was one. -/
structure Written where
  paths : List Text
  fs : FileSystem
  failure : Option Failure
deriving DecidableEq, Repr

/-- Writes one file below the output directory. -/
def writeFile (outDir : Text) (fs : FileSystem) (a : Asset) : Except Failure FileSystem :=
  match Path.outputFlaw? a.path with
  | some flaw =>
    .error (.plain ("invalid output path " ++ Text.quote a.path ++ ": " ++ flaw.message))
  | none =>
    (fs.writeAll (Path.join [outDir, a.path]) a.content).mapError fun e =>
      e.failure.within ("failed to write " ++ a.path)

/-- Writes files until one fails. -/
def writeFiles (outDir : Text) : (written : List Text) → FileSystem → List Asset → Written
  | written, fs, [] => ⟨written.reverse, fs, none⟩
  | written, fs, a :: rest =>
    match writeFile outDir fs a with
    | .ok fs => writeFiles outDir (a.path :: written) fs rest
    | .error f => ⟨written.reverse, fs, some f⟩

/-- Writes a bundle below the output directory. -/
def write (fs : FileSystem) (outDir : Text) (b : Bundle) : Written :=
  writeFiles outDir [] fs (files b)

end Output

end MiniProgram
