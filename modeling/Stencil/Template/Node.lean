/-!
# The parts of a template

A template is a sequence of texts to copy, string literals to write and calls to make.
-/

namespace Stencil.Template

/-- A call of a function with string arguments. The line is that of its opening braces, from one. -/
structure Call where
  name : String
  args : List String
  line : Nat
  deriving DecidableEq

/-- The arguments as they enter the key of a call, with a space between them. -/
def Call.argumentKey (c : Call) : String :=
  " ".intercalate c.args

/-- A part of a template. -/
inductive Node where
  | text (s : String)
  | literal (s : String)
  | call (c : Call)
  deriving DecidableEq

end Stencil.Template
