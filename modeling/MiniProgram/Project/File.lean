import MiniProgram.FileSystem.Error
import MiniProgram.Path
import MiniProgram.Yaml.Decode

/-!
The project file: the settings of `mini.config.yaml`, as they are written. A setting that is not
written has its zero value.
-/

namespace MiniProgram

/-- The settings of a project file. -/
structure ProjectFile where
  sourceDir : Text
  outDir : Text
  platform : Text
  cssModules : Bool
  unknownProps : Text
  sandboxPrefix : Option Text
  pages : List Text
  dedupe : List Text
  namedExports : Option (List (Text × List Text))
  runtimeModule : Text
  hostModule : Text
  pxMultiple : Binary64
  workers : Int
deriving DecidableEq, Repr

namespace ProjectFile

/-- The name of the project file. -/
def fileName : Text := "mini.config.yaml"

/-- The project file in which nothing is set. -/
def empty : ProjectFile :=
  ⟨[], [], [], false, [], none, [], [], none, [], [], Binary64.zero false, 0⟩

/-- The keys of a project file. -/
def keys : List Text :=
  ["sourceDir", "outDir", "platform", "cssModules", "unknownProps", "sandboxPrefix", "pages",
    "dedupe", "namedExports", "runtimeModule", "hostModule", "pxMultiple", "workers"]

/-- How a project file is read. -/
def shape (root : Yaml.Node) (fuel : Nat) : Yaml.Shape ProjectFile where
  target := "config.File"
  fields := some keys
  entry f key v := do
    let text (old : Text) : Yaml.Decoder Text := return (← Yaml.text root v).getD old
    if key = ("sourceDir" : Text) then return { f with sourceDir := ← text f.sourceDir }
    else if key = ("outDir" : Text) then return { f with outDir := ← text f.outDir }
    else if key = ("platform" : Text) then return { f with platform := ← text f.platform }
    else if key = ("cssModules" : Text) then
      return { f with cssModules := (← Yaml.bool root v).getD f.cssModules }
    else if key = ("unknownProps" : Text) then
      return { f with unknownProps := ← text f.unknownProps }
    else if key = ("sandboxPrefix" : Text) then
      return { f with sandboxPrefix := ← Yaml.text root v }
    else if key = ("pages" : Text) then return { f with pages := (← Yaml.texts root v).getD [] }
    else if key = ("dedupe" : Text) then return { f with dedupe := (← Yaml.texts root v).getD [] }
    else if key = ("namedExports" : Text) then
      return { f with namedExports := ← Yaml.textLists fuel root v }
    else if key = ("runtimeModule" : Text) then
      return { f with runtimeModule := ← text f.runtimeModule }
    else if key = ("hostModule" : Text) then return { f with hostModule := ← text f.hostModule }
    else if key = ("pxMultiple" : Text) then
      return { f with pxMultiple := (← Yaml.float root v).getD f.pxMultiple }
    else if key = ("workers" : Text) then
      return { f with workers := (← Yaml.int root v).getD f.workers }
    else return f

/-- The project file a text holds. -/
def parse (t : Text) : Except Yaml.Flaw ProjectFile := Yaml.decode shape empty t

/-- The lead of every complaint about a project's settings. -/
def invalid (message : Text) : Failure :=
  .of .invalidConfig ("invalid project config: " ++ message)

/-- The project file that reading it came to; without one nothing is set. -/
def load : Except FileError Text → Except Failure ProjectFile
  | .ok t => (parse t).mapError fun flaw =>
    invalid ("failed to parse " ++ fileName ++ ": " ++ flaw.message)
  | .error e =>
    if e.fault = .notExist then .ok empty
    else .error (e.failure.within ("failed to read " ++ fileName))

end ProjectFile

end MiniProgram
