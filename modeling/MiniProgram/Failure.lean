import MiniProgram.Text.Basic

/-!
What can go wrong in a build.

A failure says in words what happened and belongs to a fault, by which a caller tells the cases it
treats apart. Context put in front of the words keeps the fault.
-/

namespace MiniProgram

/-- The kinds of faults that are told apart. -/
inductive Fault where
  | invalidConfig
  | noEntries
  | stageOrder
  | cleanFailed
  | unknownHostProp
  | unknownHostComponent
  | missingTemplateInput
  | unknownPlatform
  | unsupportedComponent
  | unrecognizedProp
  | malformedTable
  | invalidTemplate
  | readOnly
  | transpilerStopped
  | canceled
  | notExist
  | invalidPath
  | other
deriving DecidableEq, Repr

/-- Where in a pipeline a failure arose: the stage, the module if it was one, and the words of the
failure there. -/
structure Site where
  stage : Text
  module : Text
  cause : Text
deriving DecidableEq, Repr

/-- A failure with its fault, its words, and its place in a pipeline if it arose in one. -/
structure Failure where
  fault : Fault
  message : Text
  site : Option Site
deriving DecidableEq, Repr

namespace Failure

/-- A failure outside every stage. -/
def of (fault : Fault) (message : Text) : Failure := ⟨fault, message, none⟩

/-- A failure that is told apart from no other. -/
def plain (message : Text) : Failure := of .other message

/-- The failure of what was called off. -/
def canceled : Failure := of .canceled "context canceled"

/-- The failure with context in front of its words. -/
def within (f : Failure) (context : Text) : Failure :=
  { f with message := context ++ ": " ++ f.message }

/-- The failure ascribed to a stage, and to a module unless that is empty. -/
def atStage (f : Failure) (stage module : Text) : Failure :=
  { f with
    message :=
      if module = [] then "stage " ++ stage ++ ": " ++ f.message
      else "stage " ++ stage ++ ": " ++ module ++ ": " ++ f.message
    site := some ⟨stage, module, f.message⟩ }

end Failure

/-- A result with context put in front of its failure. -/
def withContext {α : Type} (context : Text) (r : Except Failure α) : Except Failure α :=
  r.mapError (·.within context)

end MiniProgram
