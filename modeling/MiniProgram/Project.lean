import MiniProgram.Project.File
import MiniProgram.RenameRules
import MiniProgram.Text.Blank

/-!
Projects: the settings a build runs with, defaults filled in and checked.

`resolve` makes a project from a project file, the settings given on the command line, which win
over the file, and the machine. The first flaw of the settings refuses the project.
-/

namespace MiniProgram

/-- What happens to a prop the platform does not know. -/
inductive UnknownProps where
  | drop
  | passthrough
  | strict
deriving DecidableEq, Repr

namespace UnknownProps

/-- The name of a policy. -/
def name : UnknownProps → Text
  | drop => "drop"
  | passthrough => "passthrough"
  | strict => "strict"

/-- The policy with a name. -/
def ofName? (t : Text) : Option UnknownProps := [drop, passthrough, strict].find? (·.name = t)

end UnknownProps

/-- The settings a build runs with. -/
structure Project where
  root : Text
  sourceDir : Text
  outDirName : Text
  platform : Text
  cssModules : Bool
  unknownProps : UnknownProps
  sandboxPrefix : Text
  pages : List Text
  dedupe : List Text
  exports : List (Text × List Text)
  runtimeModule : Text
  hostModule : Text
  pxMultiple : Binary64
  workers : Nat
deriving DecidableEq, Repr

/-- A number of processors; a machine has at least one. -/
structure Processors where
  count : Nat
  pos : 0 < count
deriving DecidableEq, Repr

/-- A single processor. -/
def Processors.one : Processors := ⟨1, Nat.one_pos⟩

/-- Settings from beside the project file: those of the command line, and the number of processors,
which is the number of workers unless the file sets one. -/
structure Overrides where
  strict : Bool
  platform : Text
  processors : Processors
deriving DecidableEq, Repr

namespace Project

/-! ### Flaws -/

/-- Why settings are refused. -/
inductive Flaw where
  | emptyRoot
  | unknownProps (policy : Text)
  | absoluteOutDir
  | outDirEscapes (outDir : Text)
  | sourceDirEscapes (sourceDir : Text)
  | sandboxPrefix
  | pxMultiple
  | workers
  | page (path : Text)
deriving DecidableEq, Repr

/-- The wording of a flaw. -/
def Flaw.message : Flaw → Text
  | emptyRoot => "project root is empty"
  | unknownProps p => "unknownProps must be drop, passthrough or strict, got " ++ Text.quote p
  | absoluteOutDir => "outDir must be relative to the project root"
  | outDirEscapes d => "outDir " ++ Text.quote d ++ " escapes the project root"
  | sourceDirEscapes d => "sourceDir " ++ Text.quote d ++ " escapes the project root"
  | sandboxPrefix => "sandboxPrefix must end with /"
  | pxMultiple => "pxMultiple must be positive"
  | workers => "workers must be at least 1"
  | page p => "invalid page path " ++ Text.quote p

/-- The flaw as a failure. -/
def Flaw.failure (f : Flaw) : Failure := ProjectFile.invalid f.message

/-! ### Defaults -/

/-- A setting, or its default if it is not set. -/
def orElse (t default : Text) : Text := if t = [] then default else t

/-- The named exports of packages that every project knows. -/
def standardExports : List (Text × List Text) := [
  ("node_modules/react/index.js", [
    "Children", "Component", "Fragment", "Profiler", "PureComponent", "StrictMode", "Suspense",
    "cloneElement", "createContext", "createElement", "createFactory", "createRef", "forwardRef",
    "isValidElement", "lazy", "memo", "useCallback", "useContext", "useDebugValue", "useEffect",
    "useImperativeHandle", "useLayoutEffect", "useMemo", "useReducer", "useRef", "useState",
    "version"]),
  ("node_modules/scheduler/index.js", [
    "unstable_IdlePriority", "unstable_ImmediatePriority", "unstable_LowPriority",
    "unstable_NormalPriority", "unstable_UserBlockingPriority", "unstable_cancelCallback",
    "unstable_continueExecution", "unstable_getCurrentPriorityLevel",
    "unstable_getFirstCallbackNode", "unstable_next", "unstable_now", "unstable_pauseExecution",
    "unstable_runWithPriority", "unstable_scheduleCallback", "unstable_shouldYield",
    "unstable_wrapCallback"])]

/-- The named exports by normal module path, each list in ascending order; of two spellings of one
path the later counts. -/
def resolveExports (named : List (Text × List Text)) : List (Text × List Text) :=
  named.foldl (fun kvs (path, names) => Yaml.setKey (Path.normalize path) (Text.sort names) kvs) []

/-! ### Checks -/

/-- Whether a normal path leaves the project root or is the root itself. -/
def leavesRoot (p : Text) : Bool := p = [] || p = (".." : Text) || Text.startsWith p "../"

/-- The first flaw of settings with defaults filled in; the policy is still a name. -/
def flaw? (root policy outDir sourceDir sandbox : Text) (multiple : Binary64) (workers : Int)
    (pages : List Text) : Option Flaw :=
  if root = [] then some .emptyRoot
  else if (UnknownProps.ofName? policy).isNone then some (.unknownProps policy)
  else if Path.isAbsolute outDir then some .absoluteOutDir
  else if leavesRoot (Path.normalize outDir) then some (.outDirEscapes outDir)
  else if Text.startsWith sourceDir ".." then some (.sourceDirEscapes sourceDir)
  else if sandbox ≠ [] && !Text.endsWith sandbox "/" then some .sandboxPrefix
  else if multiple.negative && !multiple.isZero then some .pxMultiple
  else if workers < 1 then some .workers
  else (pages.find? fun p => p = [] || Text.startsWith p "..").map .page

/-- The project in a directory with a project file and the settings from beside it. -/
def resolve (root : Text) (f : ProjectFile) (o : Overrides) : Except Flaw Project :=
  let sourceDir := orElse (Path.normalize (Text.trim f.sourceDir)) "src"
  let outDir := orElse (Text.trim f.outDir) "dist"
  let platform :=
    orElse (if o.platform = [] then Text.trim f.platform else o.platform) "toutiao"
  let policy : Text := if o.strict then "strict" else orElse (Text.trim f.unknownProps) "drop"
  let sandbox := f.sandboxPrefix.getD RenameRules.sandboxPrefix
  let runtime := orElse (Text.trim f.runtimeModule) "remax"
  let host := orElse (Text.trim f.hostModule) (runtime ++ "/" ++ platform)
  let multiple := if f.pxMultiple.isZero then Binary64.ofInt 1 else f.pxMultiple
  let workers := if f.workers = 0 then (o.processors.count : Int) else f.workers
  let dedupe : List Text := if f.dedupe = [] then ["react"] else f.dedupe
  let pages := f.pages.map Path.normalize
  match flaw? root policy outDir sourceDir sandbox multiple workers pages with
  | some flaw => .error flaw
  | none => .ok {
      root := root
      sourceDir := sourceDir
      outDirName := outDir
      platform := platform
      cssModules := f.cssModules
      unknownProps := (UnknownProps.ofName? policy).getD .drop
      sandboxPrefix := sandbox
      pages := pages
      dedupe := dedupe
      exports := resolveExports (f.namedExports.getD standardExports)
      runtimeModule := runtime
      hostModule := host
      pxMultiple := multiple
      workers := workers.toNat }

/-! ### What a project answers -/

/-- The directory the output is written to. -/
def outDir (p : Project) : Text := Path.join [p.root, p.outDirName]

/-- Whether an unknown prop ends the build. -/
def strict (p : Project) : Bool := p.unknownProps = .strict

/-- The named exports of a module. -/
def namedExports (p : Project) (module : Text) : List Text :=
  (p.exports.lookup (Path.normalize module)).getD []

/-- The rules by which sources are renamed: the sandbox prefix and then the source directory are
stripped. -/
def renameRules (p : Project) : RenameRules :=
  RenameRules.standard [p.sandboxPrefix, p.sourceDir ++ "/"]

end Project

end MiniProgram
