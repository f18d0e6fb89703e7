import Stencil.Yaml.Scalar.Gap

/-!
# Plain scalars

A plain scalar has no sign of its own around it. It ends at a colon before a blank, at a comment, at
a line that is indented too little, at a line that parts documents, and, inside brackets, at a
bracket or a comma.
-/

namespace Stencil.Yaml

/-- The characters that start something else. -/
def isIndicator (c : Char) : Bool :=
  isFlowSign c || c == '-' || c == '?' || c == ':' || c == '#' || c == '&' || c == '*' ||
    c == '!' || c == '|' || c == '>' || c == '\'' || c == '"' || c == '%' || c == '@' || c == '\x60'

/-- Whether a plain scalar starts with `c`. -/
def startsPlain (flow : Bool) (c : Char) (rest : List Char) : Bool :=
  !(isWhite c || isBreak c || isIndicator c) ||
    ((c == '-' || (!flow && (c == '?' || c == ':'))) && !isParted rest)

namespace Plain

/-- Whether a plain scalar ends before `c`. -/
def endsBefore (flow : Bool) (c : Char) (rest : List Char) : Bool :=
  (c == ':' && isParted rest) || (flow && isFlowSign c)

/-- Whether a plain scalar ends before `c` where `c` would start a word. -/
def endsBeforeWord (flow : Bool) (margin : Nat) (m : Mark) (c : Char) (rest : List Char) : Bool :=
  (!flow && m.column < margin) || isDocumentSign m (c :: rest) || c == '#'

/-- Whether the colon `c` is refused inside brackets for what follows it. -/
def isStrayColon (flow : Bool) (c : Char) (rest : List Char) : Bool :=
  flow && c == ':' && rest.head?.any fun d => isFlowSign d || d == '?'

/-- Reads on from `m` with `text` before the gap. The result says whether the gap at the end runs
over lines. A tab may not stand in for the indentation. -/
def readFrom (flow : Bool) (margin : Nat) :
    List Char → Gap → Mark → List Char → Option (List Char × Bool × Cursor)
  | text, gap, m, [] => some (text.reverse, gap.isBroken, ⟨m, []⟩)
  | text, gap, m, c :: rest =>
    if isWhite c then
      if gap.isBroken && c == '\t' && m.column < margin then none
      else readFrom flow margin text (gap.addBlank c) (m.past c) rest
    else if isBreak c then readFrom flow margin text (gap.addBreak c) (m.past c) rest
    else if gap != .empty && endsBeforeWord flow margin m c rest then
      some (text.reverse, gap.isBroken, ⟨m, c :: rest⟩)
    else if isStrayColon flow c rest then none
    else if endsBefore flow c rest then some (text.reverse, gap.isBroken, ⟨m, c :: rest⟩)
    else readFrom flow margin (c :: (gap.folded ++ text)) .empty (m.past c) rest

/-- The plain scalar at a place, whether line breaks follow it, and the place after both. -/
def read (flow : Bool) (margin : Nat) (c : Cursor) : Option (List Char × Bool × Cursor) :=
  readFrom flow margin [] .empty c.mark c.rest

end Plain

end Stencil.Yaml
