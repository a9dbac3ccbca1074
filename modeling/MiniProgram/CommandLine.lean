import MiniProgram.CommandLine.Flags
import MiniProgram.Doctor
import MiniProgram.Scaffold
import MiniProgram.Text.Case
import MiniProgram.Watch

/-!
The commands: `init` starts a project, `doctor` checks one, `build` builds one.

A command sees the working directory, the files, the development variable of the environment and
where the transpiler is installed, and it may be interrupted. It prints, changes files and ends with
an exit code.
-/

namespace MiniProgram

namespace CommandLine

/-- What a command runs in. -/
structure World where
  cwd : Text
  fs : FileSystem
  /-- Where the transpiler is installed. -/
  bun : Option Text
  /-- The value of the development variable. -/
  devVariable : Option Text
  tools : Build.Tools
  processors : Processors
  /-- When the program is interrupted. -/
  calledOff : Build.CallOff

/-- How a command ended. What it prints also tells the times that were measured. -/
structure Ending where
  exitCode : Nat
  printed : Report.Times → Transcript
  fs : FileSystem

/-- A command that measured no times. -/
def Ending.plain (exitCode : Nat) (printed : Transcript) (fs : FileSystem) : Ending :=
  ⟨exitCode, fun _ => printed, fs⟩

/-- Whether the value of the development variable asks for development builds. -/
def asksForDev (value : Option Text) : Bool :=
  let affirmative : List Text := ["1", "true", "yes"]
  value.any fun t => affirmative.contains (Text.toLower (Text.trim t))

/-! ### Starting a project -/

/-- How `init` is used. -/
def initUsage : Transcript :=
  Console.out
    ("Mini Init\n\nUsage: mini-init [options] <project-dir>\n\nOptions:\n"
      ++ "  --template <name>  Template to use (" ++ Scaffold.nameList ++ "). Default: minimal\n"
      ++ "  --platform <name>  Target platform written to mini.config.yaml. Default: toutiao\n\n"
      ++ "Examples:\n  mini-init myapp\n  mini-init --template less myapp\n\n"
      ++ "To check an existing project, use: mini-doctor <dir>\n")

/-- The request the arguments of `init` make; the error is an option without its value. The first
argument that is no flag names the directory, and unknown flags are passed over. -/
def initRequest : Scaffold.Request → List Text → Except Text Scaffold.Request
  | r, [] => .ok r
  | r, arg :: args =>
    if arg = ("--template" : Text) || arg = ("--platform" : Text) then
      match args with
      | [] => .error arg
      | value :: rest =>
        initRequest
          (if arg = ("--template" : Text) then { r with scaffold := value }
            else { r with platform := value }) rest
    else if r.dir = [] && !Text.startsWith arg "-" then initRequest { r with dir := arg } args
    else initRequest r args

/-- Starts a project. -/
def init (w : World) (args : List Text) : Ending :=
  let asksForHelp := args.head?.any fun a => a = ("--help" : Text) || a = ("-h" : Text)
  if asksForHelp then .plain 0 initUsage w.fs
  else
    match initRequest ⟨[], Scaffold.minimal.name, []⟩ args with
    | .error option =>
      .plain 1
        (Console.header "Mini Init" ++ Console.errorLine (option ++ " requires a value")) w.fs
    | .ok r =>
      if r.dir = [] then .plain 1 initUsage w.fs
      else
        let created := Scaffold.create w.fs { r with dir := Path.absolute w.cwd r.dir }
        match created.failure with
        | some f => .plain 1 (created.printed ++ Console.errorLine f.message) created.fs
        | none => .plain 0 created.printed created.fs

/-! ### Checking a project -/

/-- The complaint about a transpiler that is not installed. -/
def notInstalled : Text := "exec: \"bun\": executable file not found in $PATH"

/-- Checks a project. -/
def doctor (w : World) (args : List Text) : Ending :=
  let dir := Path.absolute w.cwd (args.headD ".")
  let transpiler : Except Text Text := match w.bun with
    | some path => .ok path
    | none => .error notInstalled
  let file := Build.readProjectFile w.fs dir
  let checks := Doctor.checks w.tools.registry w.processors transpiler file w.fs dir
  if checks.all (·.passed) then
    .plain 0 (Doctor.render checks ++ Console.done "No problems found") w.fs
  else .plain 1 (Doctor.render checks) w.fs

/-! ### Building a project -/

/-- How `build` is used. -/
def buildUsage : Text :=
  "Usage: mini-build [options] [project-dir]\n\nOptions:\n"
    ++ Options.flags.flatMap Options.Flag.explain
    ++ "\nExamples:\n  mini-build\n  mini-build --dev --watch ./myapp\n"
    ++ "  mini-build --strict --verbose ./myapp\n"

/-- Why the transpiler cannot be started in a directory. -/
def startFlaw? (w : World) (dir : Text) : Option Text :=
  match w.bun, w.fs.list dir with
  | none, _ => some notInstalled
  | some _, .ok _ => none
  | some bun, .error e =>
    match w.fs.contains dir, e with
    | false, .on _ _ cause => some ("chdir " ++ dir ++ ": " ++ cause.message)
    | _, _ => some ("fork/exec " ++ bun ++ ": not a directory")

/-- Builds a project once, or watches it. -/
def buildProject (w : World) (o : Options) (dir : Text) : Ending :=
  let input : Build.Input :=
    ⟨dir, o.dev || o.watch || asksForDev w.devVariable, o.strict, o.platform, w.processors,
      w.calledOff⟩
  if o.watch then
    let start := Console.step "Watching %s" [dir]
    match Watch.run w.tools input w.fs [] with
    | .error f => .plain 1 (start ++ Console.errorLine f.message) w.fs
    | .ok passes =>
      ⟨0, fun times => start ++ passes.flatMap fun p => p.result.printed times,
        (passes.getLast?.map (·.result.fs)).getD w.fs⟩
  else
    let result := Build.run w.tools input (Build.readProjectFile w.fs dir) w.fs
    match result.failure with
    | some f => ⟨1, fun times => result.printed times ++ Console.errorLine f.message, result.fs⟩
    | none => ⟨0, fun times => result.printed times, result.fs⟩

/-- Builds a project. -/
def build (w : World) (args : List Text) : Ending :=
  match parseFlags .none false args with
  | .error flaw =>
    .plain (if flaw = .help then 0 else 2) (Console.err (flaw.message ++ buildUsage)) w.fs
  | .ok (o, rest) =>
    let dir := Path.absolute w.cwd (rest.headD ".")
    let ending : Ending := match startFlaw? w dir with
      | some flaw =>
        .plain 1
          (Console.errorLine ("Failed to start transpiler: failed to start bun: " ++ flaw)) w.fs
      | none => buildProject w o dir
    { ending with printed := fun times => Console.header "Mini Build" ++ ending.printed times }

/-! ### Commands by name -/

/-- A command. -/
inductive Command where
  | init
  | doctor
  | build
deriving DecidableEq, Repr

/-- The command with a name. -/
def Command.ofName? (t : Text) : Option Command :=
  if t = ("init" : Text) then some .init
  else if t = ("doctor" : Text) then some .doctor
  else if t = ("build" : Text) then some .build
  else none

/-- Runs a command. -/
def run (w : World) (args : List Text) : Command → Ending
  | .init => init w args
  | .doctor => doctor w args
  | .build => build w args

end CommandLine

end MiniProgram
