import Stencil.Text.Quoted

/-!
# Errors of templates

What can be wrong with a template or with the values it asks for, and how each error is worded. An
error that is known before any function runs is `isStatic`: the text is malformed, names an unknown
function, or passes it a wrong number of arguments.
-/

namespace Stencil.Template

/-- How many arguments a function takes. -/
inductive Arity where
  | exactly (n : Nat)
  | atLeast (n : Nat)
  deriving DecidableEq

namespace Arity

/-- Whether a number of arguments is right. -/
def accepts (count : Nat) : Arity → Bool
  | .exactly n => count == n
  | .atLeast n => n ≤ count

/-- How a message states what is right. -/
def describe : Arity → String
  | .exactly n => toString n
  | .atLeast n => s!"at least {n}"

end Arity

/-- What is wrong with the text of a template. -/
inductive SyntaxFault where
  | unclosedComment
  | textAfterComment
  | unclosedAction
  | missingSpace (c : Char)
  | unexpectedCharacter (c : Char)
  | unterminatedRaw
  | unterminatedText
  | badEscape (letter : Char) (digits : List Char)
  | unknownEscape (letter : Char)
  | notUtf8
  | emptyAction
  | argumentToText (text : String)
  | operandNotText (name : String)
  deriving DecidableEq

/-- The text of a fault. -/
def SyntaxFault.message : SyntaxFault → String
  | .unclosedComment => "unclosed comment"
  | .textAfterComment => "comment ends before closing delimiter"
  | .unclosedAction => "unclosed action"
  | .missingSpace c => s!"missing space before {Text.quoteChar c} in command"
  | .unexpectedCharacter c => s!"unexpected {Text.quoteChar c} in command"
  | .unterminatedRaw => "unterminated raw quoted string"
  | .unterminatedText => "unterminated quoted string"
  | .badEscape letter digits => "invalid escape \\" ++ String.ofList (letter :: digits)
  | .unknownEscape letter => "unknown escape sequence \\" ++ String.ofList [letter]
  | .notUtf8 => "quoted string is not valid UTF-8"
  | .emptyAction => "missing value for command"
  | .argumentToText text => s!"can't give argument to non-function {Text.quote text}"
  | .operandNotText name =>
    s!"unexpected {name} in operand; only string literals are supported"

/-- An error of a template. -/
inductive Error where
  | malformed (line : Nat) (fault : SyntaxFault)
  | unknownFunction (name : String)
  | wrongArity (name : String) (expected : Arity) (got : Nat)
  | lookup (message : String)
  | cyclic (key : String)
  | tooDeep (key : String) (limit : Nat)
  | uploadsDisabled (reason : String)
  | upload (message : String)
  deriving DecidableEq

namespace Error

/-- The text of an error. -/
def message : Error → String
  | .malformed line fault => s!"template: {line}: {fault.message}"
  | .unknownFunction name => s!"template: function {Text.quote name} not defined"
  | .wrongArity name expected got =>
    s!"template: wrong number of args for {name}: want {expected.describe} got {got}"
  | .lookup message => message
  | .cyclic key => s!"Cyclic reference {Text.quote key}"
  | .tooDeep key limit =>
    s!"template: expanding {Text.quote key} exceeds {limit} nested references"
  | .uploadsDisabled reason => reason
  | .upload message => s!"upload: {message}"

/-- Whether the error is known before any function runs. -/
def isStatic : Error → Bool
  | .malformed .. => true
  | .unknownFunction _ => true
  | .wrongArity .. => true
  | _ => false

/-- What stands in the output where a value is missing. -/
def marker (e : Error) : String :=
  s!"<ERROR:{e.message}>"

end Error

/-- A result is changed only if there is one. -/
theorem map_eq_ok_iff {ε α β : Type} {r : Except ε α} {f : α → β} {b : β} :
    r.map f = .ok b ↔ ∃ a, r = .ok a ∧ f a = b := by
  cases r <;> simp [Except.map]

/-- A result that holds a value is that value. -/
theorem eq_ok_of_toOption {ε α : Type} {r : Except ε α} {a : α} (h : r.toOption = some a) :
    r = .ok a := by
  cases r with
  | error e => cases h
  | ok b => rw [Option.some.inj h]

end Stencil.Template
