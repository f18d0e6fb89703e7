import Stencil.Text.Hex
import Stencil.Yaml.Scalar.Gap

/-!
# Quoted scalars

Between single quotes every character stands for itself, and a quote is written twice. Between
double quotes a backslash starts an escape; before a line break it takes the break away. A line that
parts documents may not be inside quotes.
-/

namespace Stencil.Yaml.Quoted

/-- The rest of a single-quoted scalar, and the place after it. -/
def readSingle : List Char → Gap → Mark → List Char → Option (List Char × Cursor)
  | _, _, _, [] => none
  | text, gap, m, '\'' :: '\'' :: rest =>
    readSingle ('\'' :: (gap.folded ++ text)) .empty ((m.past '\'').past '\'') rest
  | text, gap, m, c :: rest =>
    if isDocumentSign m (c :: rest) then none
    else if c == '\'' then some ((gap.folded ++ text).reverse, ⟨m.past c, rest⟩)
    else if isWhite c then readSingle text (gap.addBlank c) (m.past c) rest
    else if isBreak c then readSingle text (gap.addBreak c) (m.past c) rest
    else readSingle (c :: (gap.folded ++ text)) .empty (m.past c) rest

/-- What the next character between double quotes is part of. A code has so many digits after the
next one, and the value of those before. -/
inductive Place where
  | text
  | escape
  | code (left value : Nat)

/-- The character that a one-letter escape stands for. -/
def escaped? (c : Char) : Option Char :=
  match c with
  | '0' => some '\x00'
  | 'a' => some '\x07'
  | 'b' => some '\x08'
  | 't' => some '\t'
  | '\t' => some '\t'
  | 'n' => some '\n'
  | 'v' => some '\x0b'
  | 'f' => some '\x0c'
  | 'r' => some '\r'
  | 'e' => some '\x1b'
  | ' ' => some ' '
  | '"' => some '"'
  | '/' => some '/'
  | '\\' => some '\\'
  | 'N' => some '\u0085'
  | '_' => some '\u00a0'
  | 'L' => some '\u2028'
  | 'P' => some '\u2029'
  | _ => none

/-- How many digits the code of an escape has. -/
def codeLength? (c : Char) : Option Nat :=
  match c with
  | 'x' => some 2
  | 'u' => some 4
  | 'U' => some 8
  | _ => none

/-- The character of a code. -/
def charOfCode? (n : Nat) : Option Char :=
  if n.isValidChar then some (Char.ofNat n) else none

/-- The rest of a double-quoted scalar, and the place after it. -/
def readDouble : Place → List Char → Gap → Mark → List Char → Option (List Char × Cursor)
  | _, _, _, _, [] => none
  | .text, text, gap, m, c :: rest =>
    if isDocumentSign m (c :: rest) then none
    else if c == '"' then some ((gap.folded ++ text).reverse, ⟨m.past c, rest⟩)
    else if isWhite c then readDouble .text text (gap.addBlank c) (m.past c) rest
    else if isBreak c then readDouble .text text (gap.addBreak c) (m.past c) rest
    else if c == '\\' then readDouble .escape (gap.folded ++ text) .empty (m.past c) rest
    else readDouble .text (c :: (gap.folded ++ text)) .empty (m.past c) rest
  | .escape, text, _, m, c :: rest =>
    if isBreak c then readDouble .text text (.lines none []) (m.past c) rest
    else
      match codeLength? c, escaped? c with
      | some n, _ => readDouble (.code (n - 1) 0) text .empty (m.past c) rest
      | none, some e => readDouble .text (e :: text) .empty (m.past c) rest
      | none, none => none
  | .code left value, text, _, m, c :: rest =>
    match Text.hexValue? c with
    | none => none
    | some digit =>
      match left with
      | left + 1 => readDouble (.code left (value * 16 + digit)) text .empty (m.past c) rest
      | 0 =>
        match charOfCode? (value * 16 + digit) with
        | none => none
        | some e => readDouble .text (e :: text) .empty (m.past c) rest

/-- The scalar after an opening single quote. -/
def single (c : Cursor) : Option (List Char × Cursor) := readSingle [] .empty c.mark c.rest

/-- The scalar after an opening double quote. -/
def double (c : Cursor) : Option (List Char × Cursor) := readDouble .text [] .empty c.mark c.rest

end Stencil.Yaml.Quoted
