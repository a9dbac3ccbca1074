import MiniProgram.CommandLine
import MiniProgram.Duration

/-!
The program: reads the files around the working directory, runs a command on them, prints what it
prints and writes back the files it changed. Scripts are handed on as they stand, so sources have to
be plain JavaScript.
-/

namespace MiniProgram

namespace Main

/-- The text of a byte array. -/
def ofBytes (bytes : ByteArray) : Text := bytes.data.toList

/-- The bytes of a text. -/
def toBytes (t : Text) : ByteArray := ⟨t.toArray⟩

/-- The string of a text, ill-formed bytes replaced. -/
def toString (t : Text) : String := (String.fromUTF8? (toBytes (Text.toValid t))).getD ""

/-- Adds the tree at a path to a disk. -/
partial def readTree (path : String) (d : Disk) : IO Disk := do
  let real ← IO.FS.realPath path
  if ← real.isDir then
    let mut d : Disk := d.put path none
    for entry in ← real.readDir do
      d ← readTree (path ++ "/" ++ entry.fileName) d
    return d
  else
    return d.put path (some (ofBytes (← IO.FS.readBinFile path)))

/-- The disk as it is seen from a working directory. -/
def readDisk (cwd : String) : IO Disk := do
  let above := (Disk.ancestors cwd).foldl (fun d a => d.put a none) Disk.empty
  readTree cwd above

/-- Writes back what differs between two disks. -/
def writeBack (before after : Disk) : IO Unit := do
  for (path, node) in before.nodes do
    if node.isSome && (after.get? path).isNone then IO.FS.removeFile (toString path)
  for (path, node) in after.nodes do
    match node with
    | none => IO.FS.createDirAll (toString path)
    | some content =>
      if before.get? path ≠ some node then
        IO.FS.createDirAll (toString (Path.dir path))
        IO.FS.writeBinFile (toString path) (toBytes content)

/-- Where the transpiler is installed. -/
def findBun : IO (Option Text) := do
  for dir in ((← IO.getEnv "PATH").getD "").splitOn ":" do
    let candidate := dir ++ "/bun"
    if ← (try discard (IO.FS.realPath candidate); pure true catch _ => pure false) then
      return some candidate
  return none

/-- The platforms every program knows, and a transpiler that changes nothing. -/
def tools : Build.Tools := ⟨.standard, fun r => .ok ⟨r.source, []⟩⟩

end Main

end MiniProgram

open MiniProgram in
/-- Runs the command its first argument names. -/
def main (args : List String) : IO UInt32 := do
  let texts : List Text := args.map Text.ofString
  match CommandLine.Command.ofName? (texts.headD []) with
  | none =>
    IO.eprintln "Usage: mini (init|doctor|build) [arguments]"
    return 2
  | some command =>
    let start ← IO.monoNanosNow
    let cwd := (← IO.currentDir).toString
    let disk ← Main.readDisk cwd
    let world : CommandLine.World := {
      cwd := cwd
      fs := ⟨.disk disk, false⟩
      bun := ← Main.findBun
      devVariable := (← IO.getEnv "MINI_DEV").map Text.ofString
      tools := Main.tools
      processors := .one
      calledOff := .never }
    let ending := CommandLine.run world (texts.drop 1) command
    match ending.fs.store with
    | .disk after => Main.writeBack disk after
    | _ => pure ()
    let elapsed := (← IO.monoNanosNow) - start
    let times : Report.Times := fun step =>
      Duration.render ⟨if step.isSome then 0 else elapsed⟩
    for piece in ending.printed times do
      let stream ← if piece.channel = .out then IO.getStdout else IO.getStderr
      stream.write (Main.toBytes piece.text)
      stream.flush
    return ending.exitCode.toUInt32
