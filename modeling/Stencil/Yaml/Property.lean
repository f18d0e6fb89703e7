import Stencil.Text.Hex
import Stencil.Yaml.Cursor
import Stencil.Yaml.Token

/-!
# Anchors, tags and directives

An anchor names a node, an alias stands for the node of that name, and a tag says what a node is.
Directives before a document give its version of the format, and handles that shorten tags.
-/

namespace Stencil.Yaml

/-! ## Names -/

/-- A sign that may follow the name of an anchor at once. -/
def endsName (c : Char) : Bool :=
  c == '?' || c == ':' || c == ',' || c == ']' || c == '}' || c == '%' || c == '@' || c == '\x60'

/-- The name of an anchor or an alias, after its sign. -/
def readName (c : Cursor) : Option (String × Cursor) :=
  let (name, c) := c.span isWord
  if name.isEmpty then none
  else if isParted c.rest || c.rest.head?.any endsName then some (String.ofList name, c)
  else none

/-! ## Tags -/

/-- A character of a tag. Brackets and commas are some only where nothing else ends the tag. -/
def isTagChar (enclosed : Bool) (c : Char) : Bool :=
  isWord c || ";/?:@&=+$.%!~*'()".toList.contains c || (enclosed && ",[]".toList.contains c)

/-- How many octets a character has that starts with an octet. -/
def octetCount? (n : Nat) : Option Nat :=
  if n < 0x80 then some 1
  else if 0xC0 ≤ n && n < 0xE0 then some 2
  else if 0xE0 ≤ n && n < 0xF0 then some 3
  else if 0xF0 ≤ n && n < 0xF8 then some 4
  else none

/-- A tag without its escapes, with so many octets to come of a character under way. Characters of
one octet are put in their place; those of several octets stay escaped. -/
def unescapeTag : (left : Nat) → List Char → Option (List Char)
  | 0, [] => some []
  | _ + 1, [] => none
  | left, '%' :: a :: b :: rest =>
    match Text.hexNumber? [a, b], left with
    | none, _ => none
    | some n, left + 1 =>
      if 0x80 ≤ n && n < 0xC0 then (unescapeTag left rest).map ('%' :: a :: b :: ·) else none
    | some n, 0 =>
      match octetCount? n with
      | none => none
      | some 1 => (unescapeTag 0 rest).map (Char.ofNat n :: ·)
      | some count => (unescapeTag (count - 1) rest).map ('%' :: a :: b :: ·)
  | 0, c :: rest => if c == '%' then none else (unescapeTag 0 rest).map (c :: ·)
  | _ + 1, _ => none

/-- Some characters of a tag. -/
def readTagChars (enclosed : Bool) (c : Cursor) : Option (List Char × Cursor) :=
  let (found, c) := c.span (isTagChar enclosed)
  (unescapeTag 0 found).map fun text => (text, c)

/-- Some characters of a tag, at least one. -/
def readUri (enclosed : Bool) (c : Cursor) : Option (List Char × Cursor) :=
  (readTagChars enclosed c).bind fun (text, c) => if text.isEmpty then none else some (text, c)

/-- The handle of tags without another one. -/
def primaryHandle : String := "!"

/-- The handle and the suffix of a tag, after its exclamation mark. A tag in angle brackets is all
suffix, and so is a lone exclamation mark. -/
def readTag (c : Cursor) : Option (String × String × Cursor) :=
  match c.pass? '<' with
  | some c => do
    let (uri, c) ← readUri true c
    let c ← c.pass? '>'
    return ("", String.ofList uri, c)
  | none =>
    let (word, c) := c.span isWord
    match c.pass? '!' with
    | some c => do
      let (suffix, c) ← readUri false c
      return (String.ofList ('!' :: (word ++ ['!'])), String.ofList suffix, c)
    | none => do
      let (more, c) ← readTagChars false c
      let suffix := word ++ more
      if suffix.isEmpty then return ("", primaryHandle, c)
      else return (primaryHandle, String.ofList suffix, c)

/-- Whether a tag may end before a text. -/
def endsTag (flow : Bool) (rest : List Char) : Bool :=
  isParted rest || (flow && rest.head? == some ',')

/-! ## Directives -/

/-- The number of a version, of at most nine digits. -/
def readVersionNumber (c : Cursor) : Option (Nat × Cursor) :=
  let (digits, c) := c.span Char.isDigit
  if digits.isEmpty || 9 < digits.length then none
  else some (digits.foldl (fun n d => n * 10 + (d.toNat - '0'.toNat)) 0, c)

/-- The handle that a directive is for: exclamation marks, with a name between two of them. -/
def readHandle (c : Cursor) : Option (String × Cursor) := do
  let c ← c.pass? '!'
  let (word, c) := c.span isWord
  match c.pass? '!' with
  | some c => return (String.ofList ('!' :: (word ++ ['!'])), c)
  | none => if word.isEmpty then return (primaryHandle, c) else none

/-- The directive after its percent sign, and the place after its line. -/
def readDirective (c : Cursor) : Option (Token × Cursor) := do
  let (name, c) := c.span isWord
  if !isParted c.rest then none
  else
    let c := c.skip isWhite
    if name == "YAML".toList then
      let (major, c) ← readVersionNumber c
      let c ← c.pass? '.'
      let (minor, c) ← readVersionNumber c
      return (.version major minor, ← c.endLine?)
    else if name == "TAG".toList then
      let (handle, c) ← readHandle c
      if !c.rest.head?.any isWhite then none
      else
        let (uri, c) ← readUri true (c.skip isWhite)
        if !isParted c.rest then none
        else return (.handle handle (String.ofList uri), ← c.endLine?)
    else none

end Stencil.Yaml
