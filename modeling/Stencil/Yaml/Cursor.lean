/-!
# Characters and places

The characters that a YAML text is made of, and places in it. A place counts octets, lines and
columns from zero; the column decides what belongs to what.
-/

namespace Stencil.Yaml

/-! ## Characters -/

/-- A space or a tab. -/
def isWhite (c : Char) : Bool := c == ' ' || c == '\t'

/-- A line break. Carriage returns and next-line characters are line feeds by then. -/
def isBreak (c : Char) : Bool := c == '\n' || c == '\u2028' || c == '\u2029'

/-- A character of names: of anchors, of directives and of tag handles. -/
def isWord (c : Char) : Bool := c.isAlphanum || c == '_' || c == '-'

/-- A bracket or a comma, which end what stands inside brackets. -/
def isFlowSign (c : Char) : Bool :=
  c == ',' || c == '[' || c == ']' || c == '{' || c == '}'

/-- The byte order mark, which may start a line. -/
def orderMark : Char := '\uFEFF'

/-- Whether a text may hold the character. Most control characters are refused. -/
def isAllowed (c : Char) : Bool :=
  let n := c.toNat
  n == 0x09 || n == 0x0A || n == 0x0D || (0x20 ≤ n && n ≤ 0x7E) || n == 0x85 ||
    (0xA0 ≤ n && n ≤ 0xFFFD) || 0x10000 ≤ n

/-- A text with one character for each of its line breaks. -/
def unifyBreaks : List Char → List Char
  | [] => []
  | '\r' :: '\n' :: rest => '\n' :: unifyBreaks rest
  | c :: rest => (if c == '\r' || c == '\u0085' then '\n' else c) :: unifyBreaks rest

/-- Whether a text ends here or goes on with a blank or a line break. -/
def isParted : List Char → Bool
  | [] => true
  | c :: _ => isWhite c || isBreak c

/-! ## Places -/

/-- A place: how many octets and lines are before it, and how many characters of its line. -/
structure Mark where
  index : Nat
  line : Nat
  column : Nat
  deriving DecidableEq

namespace Mark

/-- The start of a text. -/
def start : Mark := ⟨0, 0, 0⟩

/-- The place after a character. -/
def past (m : Mark) (c : Char) : Mark :=
  let index := m.index + c.utf8Size
  if isBreak c then ⟨index, m.line + 1, 0⟩ else ⟨index, m.line, m.column + 1⟩

/-- The place after some characters. -/
def pastAll (m : Mark) (cs : List Char) : Mark := cs.foldl past m

end Mark

/-- Whether three dashes or periods stand alone at the start of a line. They part documents. -/
def isDocumentSign (m : Mark) (cs : List Char) : Bool :=
  m.column == 0 &&
    match cs with
    | '-' :: '-' :: '-' :: rest => isParted rest
    | '.' :: '.' :: '.' :: rest => isParted rest
    | _ => false

/-- A place and the text after it. -/
structure Cursor where
  mark : Mark
  rest : List Char

namespace Cursor

/-- The start of a text. -/
def ofText (cs : List Char) : Cursor := ⟨.start, cs⟩

/-- Past some characters. -/
def drop (c : Cursor) (n : Nat) : Cursor := ⟨c.mark.pastAll (c.rest.take n), c.rest.drop n⟩

/-- The characters of a class that follow, and the place after them. -/
def span (c : Cursor) (p : Char → Bool) : List Char × Cursor :=
  let found := c.rest.takeWhile p
  (found, ⟨c.mark.pastAll found, c.rest.dropWhile p⟩)

/-- Past the characters of a class. -/
def skip (c : Cursor) (p : Char → Bool) : Cursor := (c.span p).2

/-- Past one given character, if it is next. -/
def pass? (c : Cursor) (sign : Char) : Option Cursor :=
  match c.rest with
  | x :: rest => if x == sign then some ⟨c.mark.past x, rest⟩ else none
  | [] => none

/-- Past the end of the line, if nothing but blanks and a comment is before it. -/
def endLine? (c : Cursor) : Option Cursor :=
  let c := c.skip isWhite
  let c := if c.rest.head? == some '#' then c.skip (!isBreak ·) else c
  match c.rest with
  | [] => some c
  | x :: rest => if isBreak x then some ⟨c.mark.past x, rest⟩ else none

end Cursor

end Stencil.Yaml
