import Stencil.Yaml.Cursor

/-!
# Gaps between words

Scalars that are not blocks may run over several lines. Blanks inside a line stand for themselves;
blanks around line breaks vanish, one line break becomes a space, and of several the first vanishes.

Texts under way are kept with their newest character first.
-/

namespace Stencil.Yaml

/-- What was passed since the last word. -/
inductive Gap where
  | empty
  | blanks (text : List Char)
  | lines (first : Option Char) (more : List Char)
  deriving DecidableEq

namespace Gap

/-- The gap with one more blank. -/
def addBlank (c : Char) : Gap → Gap
  | .empty => .blanks [c]
  | .blanks text => .blanks (c :: text)
  | .lines first more => .lines first more

/-- The gap with one more line break. -/
def addBreak (c : Char) : Gap → Gap
  | .lines first more => .lines first (c :: more)
  | _ => .lines (some c) []

/-- Whether the gap runs over lines. -/
def isBroken : Gap → Bool
  | .lines .. => true
  | _ => false

/-- What the gap stands for. -/
def folded : Gap → List Char
  | .empty => []
  | .blanks text => text
  | .lines (some '\n') [] => [' ']
  | .lines (some '\n') more => more
  | .lines first more => more ++ first.toList

end Gap

end Stencil.Yaml
