import Stencil.Settings.Source
import Stencil.Upload.Error

/-!
# Failures of commands

What makes a command fail, how it is told, and the exit code of each kind. A text of a cause that
stands for itself follows the text that it caused.
-/

namespace Stencil.Command

/-- What makes a command fail. -/
inductive Failure where
  | settings (failure : Settings.Failure)
  | template (error : Template.Error)
  | connecting (text : String)
  | uploader (error : Upload.Error)
  | asking (text : String)
  | uploading (error : Upload.Error)
  | invalidDocument (message : String)
  | reading (source : String) (fault : Fault)
  | writing (target : String) (fault : Fault)
  | printing (fault : Fault)

namespace Failure

/-- A text and that of its cause. -/
def chain (text : String) (cause? : Option String) : String :=
  match cause? with
  | none => text
  | some cause => text ++ ": " ++ cause

/-- The text of a failure. -/
def message : Failure → String
  | .settings failure => chain failure.message failure.cause?
  | .template error => error.message
  | .connecting text => chain (s!"HTTP error: {text}") text
  | .uploader error => chain error.message error.cause?
  | .asking text => text
  | .uploading error => "uploading artifacts: " ++ chain error.message error.cause?
  | .invalidDocument message => "Invalid input: not a JSON document: " ++ message
  | .reading source fault => s!"reading {source}: {fault.message}"
  | .writing target fault => s!"writing {target}: {fault.message}"
  | .printing fault => fault.message

/-- The exit code of a failure. -/
def code : Failure → Nat
  | .reading .. => 1
  | .writing .. => 1
  | .printing _ => 1
  | .asking _ => 1
  | .invalidDocument _ => 2
  | .settings _ => 3
  | .template _ => 4
  | .connecting _ => 5
  | .uploader _ => 5
  | .uploading _ => 5

end Failure

end Stencil.Command
