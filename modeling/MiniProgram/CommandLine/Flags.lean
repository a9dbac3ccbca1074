import MiniProgram.Text.Quoted

/-!
Flags of a command line.

A flag begins with one hyphen or two. A switch may be given a truth value after `=`; any other flag
takes its value after `=` or from the next argument. Flags end at the first argument that is none,
or after two hyphens on their own.
-/

namespace MiniProgram

namespace CommandLine

/-- The flags of the build command. -/
structure Options where
  dev : Bool
  watch : Bool
  strict : Bool
  verbose : Bool
  platform : Text
deriving DecidableEq, Repr

namespace Options

/-- The options when no flag is given. -/
def none : Options := ⟨false, false, false, false, []⟩

/-- How a flag changes the options. -/
inductive Setter where
  | switch (set : Options → Bool → Options)
  | value (kind : Text) (set : Options → Text → Options)

/-- A flag with its name and what it is good for. -/
structure Flag where
  name : Text
  setter : Setter
  purpose : Text

/-- The flags, in ascending order. -/
def flags : List Flag := [
  ⟨"dev", .switch fun o b => { o with dev := b },
    "dev build: keep the output directory (also MINI_DEV=1)"⟩,
  ⟨"platform", .value "string" fun o t => { o with platform := t },
    "target platform, overrides mini.config.yaml"⟩,
  ⟨"strict", .switch fun o b => { o with strict := b }, "fail on unknown host component props"⟩,
  ⟨"verbose", .switch fun o b => { o with verbose := b }, "log every stage and module"⟩,
  ⟨"watch", .switch fun o b => { o with watch := b }, "rebuild on every change (implies --dev)"⟩]

/-- The lines that explain a flag. -/
def Flag.explain (f : Flag) : Text :=
  let kind : Text := match f.setter with
    | .switch _ => []
    | .value kind _ => " " ++ kind
  "  -" ++ f.name ++ kind ++ "\n    \t" ++ f.purpose ++ "\n"

end Options

/-- Why flags are refused; a request for help refuses them too. -/
inductive FlagFlaw where
  | help
  | badSyntax (arg : Text)
  | unknown (name : Text)
  | badSwitch (name value : Text)
  | missingValue (name : Text)
deriving DecidableEq, Repr

/-- The wording of a flaw; a request for help needs none. -/
def FlagFlaw.message : FlagFlaw → Text
  | help => []
  | badSyntax arg => "bad flag syntax: " ++ arg ++ "\n"
  | unknown name => "flag provided but not defined: -" ++ name ++ "\n"
  | badSwitch name value =>
    "invalid boolean value " ++ Text.quote value ++ " for -" ++ name ++ ": parse error\n"
  | missingValue name => "flag needs an argument: -" ++ name ++ "\n"

/-- The truth value a text stands for. -/
def truth? (t : Text) : Option Bool :=
  let yes : List Text := ["1", "t", "T", "TRUE", "true", "True"]
  let no : List Text := ["0", "f", "F", "FALSE", "false", "False"]
  if yes.contains t then some true else if no.contains t then some false else none

/-- The name of a flag and the value after `=`, if there is one. -/
def splitFlag (t : Text) : Text × Option Text :=
  match t.findIdx? (· = Byte.equals) with
  | some i => (t.take i, some (t.drop (i + 1)))
  | none => (t, none)

/-- What is left of an argument after its one or two hyphens; `none` if it is no flag. -/
def flagBody? : Text → Option Text
  | Byte.hyphen :: Byte.hyphen :: t => some t
  | Byte.hyphen :: b :: t => some (b :: t)
  | _ => none

/-- Sets a flag: the options, and whether the next argument was used up. -/
def setFlag (o : Options) (name : Text) (value next : Option Text) :
    Except FlagFlaw (Options × Bool) :=
  match Options.flags.find? (·.name = name) with
  | none =>
    if name = ("help" : Text) || name = ("h" : Text) then .error .help else .error (.unknown name)
  | some flag =>
    match flag.setter, value, next with
    | .switch set, none, _ => .ok (set o true, false)
    | .switch set, some v, _ =>
      match truth? v with
      | some b => .ok (set o b, false)
      | none => .error (.badSwitch name v)
    | .value _ set, some v, _ => .ok (set o v, false)
    | .value _ set, none, some v => .ok (set o v, true)
    | .value _ _, none, none => .error (.missingValue name)

/-- The options a command line sets, and the arguments that are no flags; `skip` tells that the next
argument is a value already used. -/
def parseFlags (o : Options) : (skip : Bool) → List Text → Except FlagFlaw (Options × List Text)
  | _, [] => .ok (o, [])
  | true, _ :: args => parseFlags o false args
  | false, arg :: args =>
    match flagBody? arg with
    | none => .ok (o, arg :: args)
    | some [] => .ok (o, args)
    | some (b :: body) =>
      if b = Byte.hyphen || b = Byte.equals then .error (.badSyntax arg)
      else
        let (name, value) := splitFlag (b :: body)
        match setFlag o name value args.head? with
        | .error flaw => .error flaw
        | .ok (o, used) => parseFlags o used args

end CommandLine

end MiniProgram
