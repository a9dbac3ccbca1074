import MiniProgram.Stage

/-!
The order of the stages of a pipeline.

`flaw?` accepts a pipeline in which the output is cleaned first, or never in a development build;
modules are emitted once, at the end; imports are resolved and CommonJS packages wrapped before
components are built; an extension that is renamed is consumed before that; and content is changed
before modules are stripped.
-/

namespace MiniProgram

namespace Pipeline

/-- Why stages are not in order. -/
inductive OrderFlaw where
  | noStages
  | repeatedStage (name : Text)
  | cleanInDevelopment
  | cleanNotFirst (first : Text)
  | repeatedClean
  | noEmit
  | repeatedEmit
  | emitNotLast (emit : Text)
  | mustPrecede (first second : Text)
  | neverRenamed (stage ext : Text)
  | renamedBefore (stage ext rename : Text)
deriving DecidableEq, Repr

namespace OrderFlaw

/-- The wording of a flaw. -/
def message : OrderFlaw → Text
  | noStages => "pipeline has no stages"
  | repeatedStage s => "stage " ++ s ++ " appears twice"
  | cleanInDevelopment => "dev builds must not clean the output directory"
  | cleanNotFirst s => "clean must be the first stage, got " ++ s
  | repeatedClean => "clean appears more than once"
  | noEmit => "pipeline has no emit stage"
  | repeatedEmit => "more than one emit stage"
  | emitNotLast s => s ++ " must be the last stage"
  | mustPrecede s t => s ++ " must run before " ++ t
  | neverRenamed s e => s ++ " consumes " ++ e ++ " but no stage renames it"
  | renamedBefore s e r => s ++ " consumes " ++ e ++ " after " ++ r ++ " has renamed it"

/-- The flaw as a failure. -/
def failure (f : OrderFlaw) : Failure := .of .stageOrder ("stage order violation: " ++ f.message)

end OrderFlaw

/-- The first stage with a role and its place. -/
def firstOf (role : Role) (stages : List StageInfo) : Option (StageInfo × Nat) :=
  stages.zipIdx.find? fun (s, _) => s.role = role

/-- The first name that appears again. -/
def repeatedName? : (seen : List Text) → List StageInfo → Option OrderFlaw
  | _, [] => none
  | seen, s :: rest =>
    if seen.contains s.name then some (.repeatedStage s.name)
    else repeatedName? (s.name :: seen) rest

/-- What is wrong with the cleaning of the output. -/
def cleanFlaw? (dev : Bool) (stages : List StageInfo) : Option OrderFlaw :=
  let count := (stages.filter (·.role = .clean)).length
  if dev then if 0 < count then some .cleanInDevelopment else none
  else
    match stages with
    | [] => none
    | s :: _ =>
      if s.role ≠ .clean then some (.cleanNotFirst s.name)
      else if 1 < count then some .repeatedClean
      else none

/-- What is wrong with the emitting stage. -/
def emitFlaw? (stages : List StageInfo) : Option OrderFlaw :=
  match stages.filter (·.role = .emit), stages.getLast? with
  | [], _ => some .noEmit
  | [s], some last => if last.role = .emit then none else some (.emitNotLast s.name)
  | _, _ => some .repeatedEmit

/-- The first stage of some kind that runs after the first stage with a role. -/
def lateStage? (isKind : StageInfo → Bool) (role : Role) (stages : List StageInfo) :
    Option OrderFlaw := do
  let (before, i) ← firstOf role stages
  let (s, _) ← stages.zipIdx.find? fun (s, j) => isKind s && i < j
  return .mustPrecede s.name before.name

/-- The first extension a stage works on that the rules rename. -/
def changedExt? (rules : RenameRules) (s : StageInfo) : Option Text :=
  if s.role = .rename then none else s.consumes.find? rules.changesExt

/-- What is wrong with the extensions a stage works on. -/
def extFlaw? (rules : RenameRules) (rename : Option (StageInfo × Nat)) (s : StageInfo × Nat) :
    Option OrderFlaw := do
  let ext ← changedExt? rules s.1
  match rename with
  | none => some (.neverRenamed s.1.name ext)
  | some (r, i) => if i < s.2 then some (.renamedBefore s.1.name ext r.name) else none

/-- The first flaw in the order of some stages. -/
def flaw? (stages : List StageInfo) (dev : Bool) (rules : RenameRules) : Option OrderFlaw :=
  if stages = [] then some .noStages
  else
    (repeatedName? [] stages).or <|
    (cleanFlaw? dev stages).or <|
    (emitFlaw? stages).or <|
    (lateStage? (fun s => s.role = .resolve || s.role = .interop) .component stages).or <|
    (stages.zipIdx.findSome? (extFlaw? rules (firstOf .rename stages))).or <|
    (lateStage? (·.role.isContent) .strip stages)

end Pipeline

end MiniProgram
