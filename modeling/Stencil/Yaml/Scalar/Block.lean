import Stencil.Yaml.Cursor

/-!
# Block scalars

A block scalar is made of the lines below its header that are indented alike. The indentation is
given in the header, or it is that of the first line with text; empty lines before that one may not
be indented deeper. A literal block keeps its line breaks. A folded one turns a single break between
two lines that start with text into a space. How a block ends is up to its header: with the last
line break, without it, or with all line breaks.
-/

namespace Stencil.Yaml

/-- What becomes of the line breaks at the end of a block. -/
inductive Chomp where
  | strip
  | clip
  | keep
  deriving DecidableEq

/-- A block under way: its indentation, 0 until it is known; the widest indentation seen; the last
line break of a line with text; the empty lines after it; whether that line started with a blank;
and the text. Texts have their newest character first. -/
structure Block where
  indent : Nat
  widest : Nat := 0
  lead : List Char := []
  empty : List Char := []
  shifted : Bool := false
  text : List Char := []

namespace Block

/-- Whether a place may be part of the indentation. -/
def isIndent (b : Block) (m : Mark) : Bool := b.indent == 0 || m.column < b.indent

/-- The block with its indentation known, at the first line with text. -/
def settle (b : Block) (margin : Nat) : Block :=
  if b.indent == 0 then { b with indent := max (max b.widest margin) 1 } else b

/-- The block at a line with text that starts with `c`. -/
def startLine (b : Block) (isFolded : Bool) (c : Char) : Block :=
  let joined :=
    if isFolded && b.lead == ['\n'] && !b.shifted && !isWhite c then
      if b.empty.isEmpty then ' ' :: b.text else b.text
    else b.lead ++ b.text
  { b with lead := [], empty := [], shifted := isWhite c, text := c :: (b.empty ++ joined) }

/-- The text of a block that is complete. -/
def close (b : Block) (chomp : Chomp) : List Char :=
  match chomp with
  | .strip => b.text.reverse
  | .clip => (b.lead ++ b.text).reverse
  | .keep => (b.empty ++ (b.lead ++ b.text)).reverse

/-- Reads on from `m`, inside a line or at its indentation. A tab may not stand in for the
indentation. -/
def readFrom (isFolded : Bool) (margin : Nat) (chomp : Chomp) :
    (inLine : Bool) → Block → Mark → List Char → Option (List Char × Cursor)
  | _, b, m, [] => some (b.close chomp, ⟨m, []⟩)
  | true, b, m, c :: rest =>
    if isBreak c then readFrom isFolded margin chomp false { b with lead := [c] } (m.past c) rest
    else readFrom isFolded margin chomp true { b with text := c :: b.text } (m.past c) rest
  | false, b, m, c :: rest =>
    if b.isIndent m && c == ' ' then readFrom isFolded margin chomp false b (m.past c) rest
    else if b.isIndent m && c == '\t' then none
    else
      let b := { b with widest := max b.widest m.column }
      if isBreak c then
        readFrom isFolded margin chomp false { b with empty := c :: b.empty } (m.past c) rest
      else
        let b := b.settle margin
        if m.column == b.indent then
          readFrom isFolded margin chomp true (b.startLine isFolded c) (m.past c) rest
        else some (b.close chomp, ⟨m, c :: rest⟩)

/-! ## Headers -/

/-- The sign for how a block ends. -/
def chomp? : Char → Option Chomp
  | '+' => some .keep
  | '-' => some .strip
  | _ => none

/-- The digit for how deep a block is indented, and the text after it. There may be none; it may not
be zero. -/
def digit? (cs : List Char) : Option (Nat × List Char) :=
  match cs with
  | [] => some (0, [])
  | c :: rest =>
    if c == '0' then none
    else if c.isDigit then some (c.toNat - '0'.toNat, rest)
    else some (0, c :: rest)

/-- The sign and the digit of a header, in either order, and the text after them. -/
def header? (cs : List Char) : Option (Chomp × Nat × List Char) :=
  match cs.head?.bind chomp? with
  | some chomp => (digit? cs.tail).map fun (n, rest) => (chomp, n, rest)
  | none =>
    match digit? cs with
    | none => none
    | some (0, rest) => some (.clip, 0, rest)
    | some (n, rest) =>
      match rest.head?.bind chomp? with
      | some chomp => some (chomp, n, rest.tail)
      | none => some (.clip, n, rest)

/-- The block scalar after its indicator, inside blocks that reach up to `margin`. -/
def read (isFolded : Bool) (margin : Nat) (c : Cursor) : Option (List Char × Cursor) := do
  let (chomp, n, rest) ← header? c.rest
  let c ← (c.drop (c.rest.length - rest.length)).endLine?
  let indent := if n == 0 then 0 else margin - 1 + n
  readFrom isFolded margin chomp false { indent } c.mark c.rest

end Block

end Stencil.Yaml
