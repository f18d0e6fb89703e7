import Stencil.Yaml.Property
import Stencil.Yaml.Scalar.Block
import Stencil.Yaml.Scalar.Plain
import Stencil.Yaml.Scalar.Quoted

/-!
# Layout

Cuts a text into tokens. Outside brackets the column of a token says to which block it belongs: an
item or a key in a new column opens a block there, and a token further left closes the blocks it is
left of.

A key is known as one only by the colon after it. So the place of each token that might be a key is
remembered until the colon comes or cannot come any more; then the tokens that make it a key are put
before it.
-/

namespace Stencil.Yaml

/-- A token that might be a key: how many tokens are before it, where it stands, and whether nothing
but a key can stand there. -/
structure KeyPlace where
  count : Nat
  mark : Mark
  isRequired : Bool

/-- The most octets between the start of a key and its colon. -/
def keyReach : Nat := 1024

/-- A text being cut: its tokens so far; the place; the columns of the open blocks, innermost first;
the possible key inside the innermost bracket, and those outside each open bracket; and whether a
key may start here. -/
structure Layout where
  tokens : Array Token := #[]
  cursor : Cursor
  blocks : List Nat := []
  key : Option KeyPlace := none
  outer : List (Option KeyPlace) := []
  keyAllowed : Bool := true

namespace Layout

/-- Whether the place is inside brackets. -/
def isFlow (l : Layout) : Bool := !l.outer.isEmpty

/-- The least column of what lies deeper than the innermost block. -/
def margin (l : Layout) : Nat := (l.blocks.head?.map (· + 1)).getD 0

/-- The column of the place. -/
def column (l : Layout) : Nat := l.cursor.mark.column

/-- One more token. -/
def push (t : Token) (l : Layout) : Layout := { l with tokens := l.tokens.push t }

/-- One more token, of so many characters. -/
def pushSign (t : Token) (length : Nat) (l : Layout) : Layout :=
  { l.push t with cursor := l.cursor.drop length }

/-- A token before the ones from the given count on. -/
def insert (count : Nat) (t : Token) (l : Layout) : Layout :=
  { l with tokens := (l.tokens.extract 0 count).push t ++ l.tokens.extract count l.tokens.size }

/-- Whether keys may start from here on. -/
def allowKey (allowed : Bool) (l : Layout) : Layout := { l with keyAllowed := allowed }

/-! ## Possible keys -/

/-- What might have been a key is none, which is a fault where a key had to be. -/
def dropKey (l : Layout) : Option Layout :=
  if l.key.any (·.isRequired) then none else some { l with key := none }

/-- The next token might be a key, if one may start here. -/
def saveKey (l : Layout) : Option Layout :=
  if l.keyAllowed then
    l.dropKey.map fun l =>
      let isRequired := !l.isFlow && l.column + 1 == l.margin
      { l with key := some ⟨l.tokens.size, l.cursor.mark, isRequired⟩ }
  else some l

/-- Whether a key that stands at `k` may get its colon at `m`. -/
def KeyPlace.isOpen (k : KeyPlace) (m : Mark) : Bool :=
  k.mark.line == m.line && m.index ≤ k.mark.index + keyReach

/-- A possible key once the place has moved on to `m`. -/
def outlive (m : Mark) (key : Option KeyPlace) : Option (Option KeyPlace) :=
  match key with
  | none => some none
  | some k =>
    if KeyPlace.isOpen k m then some (some k) else if k.isRequired then none else some none

/-- Gives up the possible keys whose colon cannot come any more. -/
def dropOldKeys (l : Layout) : Option Layout := do
  let key ← outlive l.cursor.mark l.key
  let outer ← l.outer.mapM (outlive l.cursor.mark)
  return { l with key, outer }

/-! ## Blocks -/

/-- Opens a block in a column unless that column lies in one, with its token before the ones from
the given count on. -/
def openBlock (column count : Nat) (t : Token) (l : Layout) : Layout :=
  if !l.isFlow && l.margin ≤ column then { l.insert count t with blocks := column :: l.blocks }
  else l

/-- Closes the blocks that reach up to `margin` or further. -/
def closeBlocks (margin : Nat) (l : Layout) : Layout :=
  if l.isFlow then l
  else
    let closed := l.blocks.takeWhile (margin ≤ ·)
    { l with
      tokens := l.tokens ++ closed.map fun _ => Token.blockEnd
      blocks := l.blocks.dropWhile (margin ≤ ·) }

/-! ## Tokens -/

/-- Passes over blanks, comments and line breaks. A line break outside brackets lets a key start. A
tab may not stand where a key may start. -/
def skipFrom (flow : Bool) : (allowed inComment : Bool) → Mark → List Char → Bool × Cursor
  | allowed, _, m, [] => (allowed, ⟨m, []⟩)
  | allowed, inComment, m, c :: rest =>
    if isBreak c then skipFrom flow (allowed || !flow) false (m.past c) rest
    else if inComment || c == '#' then skipFrom flow allowed true (m.past c) rest
    else if c == ' ' || (c == '\t' && (flow || !allowed)) || (c == orderMark && m.column == 0) then
      skipFrom flow allowed false (m.past c) rest
    else (allowed, ⟨m, c :: rest⟩)

/-- Moves on to the next token. -/
def skip (l : Layout) : Layout :=
  let (keyAllowed, cursor) := skipFrom l.isFlow l.keyAllowed false l.cursor.mark l.cursor.rest
  { l with keyAllowed, cursor }

/-- A directive. -/
def directive (l : Layout) : Option Layout := do
  let l ← (l.closeBlocks 0).dropKey
  let (t, cursor) ← readDirective (l.cursor.drop 1)
  return { (l.allowKey false).push t with cursor }

/-- A line that parts documents. -/
def documentSign (t : Token) (l : Layout) : Option Layout := do
  let l ← (l.closeBlocks 0).dropKey
  return (l.allowKey false).pushSign t 3

/-- An opening bracket. -/
def openFlow (t : Token) (l : Layout) : Option Layout := do
  let l ← l.saveKey
  return { (l.allowKey true).pushSign t 1 with key := none, outer := l.key :: l.outer }

/-- A closing bracket. -/
def closeFlow (t : Token) (l : Layout) : Option Layout := do
  let l ← l.dropKey
  let l := (l.allowKey false).pushSign t 1
  match l.outer with
  | [] => return l
  | key :: outer => return { l with key, outer }

/-- A comma. -/
def comma (l : Layout) : Option Layout := do
  let l ← l.dropKey
  return (l.allowKey true).pushSign .entry 1

/-- Opens a block here for a token that starts one. -/
def openHere (t : Token) (l : Layout) : Option Layout :=
  if l.isFlow then some l
  else if l.keyAllowed then some (l.openBlock l.column l.tokens.size t)
  else none

/-- A dash. -/
def item (l : Layout) : Option Layout := do
  let l ← (← l.openHere .blockList).dropKey
  return (l.allowKey true).pushSign .item 1

/-- A question mark. -/
def keySign (l : Layout) : Option Layout := do
  let l ← (← l.openHere .blockTable).dropKey
  return (l.allowKey !l.isFlow).pushSign .key 1

/-- A colon. -/
def valueSign (l : Layout) : Option Layout :=
  match l.key with
  | some k =>
    let l := (l.insert k.count .key).openBlock k.mark.column k.count .blockTable
    some ((({ l with key := none }).allowKey false).pushSign .value 1)
  | none => do
    let l ← l.openHere .blockTable
    return (l.allowKey !l.isFlow).pushSign .value 1

/-- A name after its sign. -/
def name (t : String → Token) (l : Layout) : Option Layout := do
  let l ← l.saveKey
  let (name, cursor) ← readName (l.cursor.drop 1)
  return { (l.allowKey false).push (t name) with cursor }

/-- A tag. -/
def tag (l : Layout) : Option Layout := do
  let l ← l.saveKey
  let (handle, suffix, cursor) ← readTag (l.cursor.drop 1)
  if endsTag l.isFlow cursor.rest then
    return { (l.allowKey false).push (.tag handle suffix) with cursor }
  else none

/-- A block scalar. -/
def block (isFolded : Bool) (l : Layout) : Option Layout := do
  let l ← l.dropKey
  let (text, cursor) ← Block.read isFolded l.margin (l.cursor.drop 1)
  let t := .scalar (if isFolded then .folded else .literal) (String.ofList text)
  return { (l.allowKey true).push t with cursor }

/-- A quoted scalar. -/
def quoted (read : Cursor → Option (List Char × Cursor)) (l : Layout) : Option Layout := do
  let l ← l.saveKey
  let (text, cursor) ← read (l.cursor.drop 1)
  return { (l.allowKey false).push (.scalar .quoted (String.ofList text)) with cursor }

/-- A plain scalar. -/
def plain (l : Layout) : Option Layout := do
  let l ← l.saveKey
  let (text, isBroken, cursor) ← Plain.read l.isFlow l.margin l.cursor
  return { (l.allowKey isBroken).push (.scalar .plain (String.ofList text)) with cursor }

/-- The token that starts with `c`. -/
def next (c : Char) (rest : List Char) (l : Layout) : Option Layout :=
  if l.column == 0 && c == '%' then l.directive
  else if isDocumentSign l.cursor.mark (c :: rest) then
    l.documentSign (if c == '-' then .documentStart else .documentEnd)
  else if c == '-' && isParted rest then l.item
  else if c == '?' && (l.isFlow || isParted rest) then l.keySign
  else if c == ':' && (l.isFlow || isParted rest) then l.valueSign
  else
    match c with
    | '[' => l.openFlow .flowList
    | '{' => l.openFlow .flowTable
    | ']' => l.closeFlow .flowListEnd
    | '}' => l.closeFlow .flowTableEnd
    | ',' => l.comma
    | '*' => l.name .alias
    | '&' => l.name .anchor
    | '!' => l.tag
    | '\'' => l.quoted Quoted.single
    | '"' => l.quoted Quoted.double
    | c =>
      if !l.isFlow && c == '|' then l.block false
      else if !l.isFlow && c == '>' then l.block true
      else if startsPlain l.isFlow c rest then l.plain
      else none

/-- All tokens, cutting at most so many more. -/
def run : Nat → Layout → Option (List Token)
  | 0, _ => none
  | n + 1, l => do
    let l ← l.skip.dropOldKeys
    match l.cursor.rest with
    | [] => return (← (l.closeBlocks 0).dropKey).tokens.toList
    | c :: rest => run n (← (l.closeBlocks (l.column + 1)).next c rest)

end Layout

/-- The tokens of a text. -/
def Token.scan (cs : List Char) : Option (List Token) :=
  Layout.run (cs.length + 1) { cursor := .ofText cs }

end Stencil.Yaml
